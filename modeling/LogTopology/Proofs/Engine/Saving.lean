import LogTopology.Engine.Session
import LogTopology.Proofs.Disk.Whole
/-!
# Levels that are kept in a file

What calls in turn make of a file that keeps the levels of loggers. A call that tells success has
put into the file exactly what the operation on entries makes of the document that was there, or of
the empty one; every other call leaves the session as it was, so the file too. A call can tell
success only when the document is read, the operation has something to do and the path can be opened
for writing, and then it does (`calls_lawful`).

A document that was written is known by its text; that the text is read as the same document again
is assumed where it is needed (`Document.ReadsBack`).

A step of one call is told by `FileStep.Lawful`, in terms of the document that the call works on and
of the operation on entries that it stands for; that these operations do what they should is told
with the entries. `Session.callFile_lawful` proves it for one call, by the two ways in which a call
can go, and the file stays one that calls can work on, so calls in turn are lawful by induction.

Nothing is said of two clients that write one file at the same time.
-/

namespace LogTopology

open Document (Table Value)

/-- The text of a document is read as the same document again. -/
def Document.ReadsBack (doc : Table) : Prop :=
  ∃ found, read? (write doc) = some found ∧ (Value.table found).same (.table doc) = true

instance (doc : Table) : Decidable (Document.ReadsBack doc) :=
  decidable_of_iff _ (Option.any_eq_true (fun found => (Value.table found).same (.table doc))
    (Document.read? (Document.write doc)))

/-- A file holds a document: it has the document's text, and that is how the document is read. -/
structure Engine.Holds (d : Disk) (path : String) (doc : Table) : Prop where
  text : d.readText path = .ok (Document.write doc)
  document : Document.ReadsBack doc →
    ∃ found, readDocument d path = .ok found ∧ (Value.table found).same (.table doc) = true

/-- A call on the entries of the loggers in a file. -/
inductive FileCall where
  | save (logger : LoggerState) (overwrite : Bool)
  | delete (name : String)

namespace FileCall

/-- The document that a call works on: the one in the file, or for a level that is saved the empty
one when there is no file or it is to be replaced. -/
def source (d : Disk) (path : String) : FileCall → Setup Table
  | save _ overwrite =>
    if overwrite || !(d.item? path).isSome then .ok [] else Engine.readDocument d path
  | delete _ => Engine.readDocument d path

/-- What a call makes of a document; nothing when it finds nothing to do. -/
def edit (doc : Table) : FileCall → Setup (Option Table)
  | save logger _ => some <$> Roster.upsertLevel doc logger.name logger.level
  | delete name => Roster.remove? doc name

/-- What a call makes of a disk; nothing when it finds nothing to do. -/
def onDisk (d : Disk) (path : String) : FileCall → Setup (Option Disk)
  | save logger overwrite => some <$> Engine.saveLevel d path logger.name logger.level overwrite
  | delete name => Engine.deleteEntry? d path name

end FileCall

/-- A call on a file: the sessions before and after it, and what it told. -/
structure FileStep where
  before : Session
  call : FileCall
  told : Setup Bool
  after : Session

namespace Session

/-- The disk of a session. -/
def disk (s : Session) : Disk :=
  s.engine.world.disk

/-- The session with another disk. -/
def withDisk (s : Session) (d : Disk) : Session :=
  s.withEngine { s.engine with world := { s.engine.world with disk := d } }

/-- What a call tells, and the session after it. A level that was saved is told like an entry that
was removed. -/
def callFile (s : Session) (path : String) : FileCall → Setup Bool × Session
  | .save logger overwrite =>
    let r := s.save logger path overwrite
    ((fun _ => true) <$> r.1, r.2)
  | .delete name => s.delete path name

/-- Calls on a file in turn. -/
def steps (s : Session) (path : String) : List FileCall → List FileStep
  | [] => []
  | c :: cs =>
    let r := s.callFile path c
    ⟨s, c, r.1, r.2⟩ :: r.2.steps path cs

end Session

/-- What a call on a file may do. -/
structure FileStep.Lawful (path : String) (step : FileStep) : Prop where
  told : ∀ doc new, step.call.source step.before.disk path = .ok doc →
    step.call.edit doc = .ok (some new) → step.before.disk.openFault? path = none →
    step.told = .ok true
  saved : step.told = .ok true →
    ∃ doc new, step.call.source step.before.disk path = .ok doc ∧
      step.call.edit doc = .ok (some new) ∧ Engine.Holds step.after.disk path new
  kept : step.told ≠ .ok true → step.after = step.before
  others : ∀ q, step.after.disk.item? q ≠ step.after.disk.item? path →
    step.after.disk.textAt q = step.before.disk.textAt q

variable {d d' : Disk} {path : String} {c : FileCall} {s : Session} {doc new : Table}

/-! ## Documents -/

/-- A file that was given the text of a document holds it. -/
theorem Engine.holds_of_replaces
    (replaces : d.Replaces d' path (Text.encode (Document.write doc).toList)) :
    Holds d' path doc where
  text := replaces.readText
  document := by
    rintro ⟨found, read, same⟩
    refine ⟨found, ?_, same⟩
    rw [readDocument, readText, replaces.readText]
    change parseFile path (Document.write doc) = _
    rw [parseFile, Setup.within_eq_ok, Build.parse, read]

/-- A document is written exactly when the path can be opened. -/
theorem Engine.writeDocument_cases (sound : d.Sound) (plain : d.FileOrNothing path) (doc : Table) :
    (d.openFault? path ≠ none ∧ ∀ d', writeDocument d path doc ≠ .ok d') ∨
      (d.openFault? path = none ∧ ∃ d', writeDocument d path doc = .ok d' ∧
        d.Replaces d' path (Text.encode (Document.write doc).toList)) := by
  rcases Disk.writeFile_cases sound plain (Text.encode (Document.write doc).toList) with
    ⟨fault, refused, failed⟩ | ⟨opens, d', written, replaces⟩
  · refine .inl ⟨by rw [refused]; exact nofun, fun d' => ?_⟩
    rw [writeDocument, failed]
    exact nofun
  · refine .inr ⟨opens, d', ?_, replaces⟩
    rw [writeDocument, written]
    rfl

/-- A path that is written to exists when there is something at it. -/
theorem Engine.pathExists_of_written (written : writeDocument d path doc = .ok d') :
    d.pathExists path = (d.item? path).isSome := by
  cases opening : d.openOrMake path with
  | error e =>
    rw [writeDocument, Disk.writeFile, opening] at written
    cases written
  | ok opened => exact Disk.pathExists_eq (Disk.openOrMake_eq_ok opening).1

/-! ## One call -/

/-- Saving a level writes what the operation on entries makes of the document. -/
theorem Engine.saveLevel_eq_ok {logger : LoggerState} {overwrite : Bool} :
    saveLevel d path logger.name logger.level overwrite = .ok d' ↔
      ∃ doc new, (FileCall.save logger overwrite).source d path = .ok doc ∧
        Roster.upsertLevel doc logger.name logger.level = .ok new ∧
        writeDocument d path new = .ok d' := by
  have saved : saveLevel d path logger.name logger.level overwrite = .ok d' ↔
      ∃ doc new,
        (if overwrite || !d.pathExists path then .ok [] else readDocument d path) = .ok doc ∧
          Roster.upsertLevel doc logger.name logger.level = .ok new ∧
          writeDocument d path new = .ok d' := by
    unfold saveLevel
    by_cases fresh : overwrite || !d.pathExists path
    · simp only [if_pos fresh]
      change (Roster.upsertLevel [] logger.name logger.level >>= writeDocument d path) = _ ↔ _
      simp only [Setup.bind_eq_ok, Except.ok.injEq, exists_and_left, exists_eq_left']
    · simp only [if_neg fresh]
      change (_ >>= fun doc => Roster.upsertLevel doc logger.name logger.level >>= _) = _ ↔ _
      simp only [Setup.bind_eq_ok, Setup.within_eq_ok, exists_and_left]
  rw [saved]
  refine exists_congr fun doc => exists_congr fun new => and_congr_left ?_
  rintro ⟨-, written⟩
  rw [FileCall.source, pathExists_of_written written]

/-- Deleting an entry writes what the operation on entries makes of the document in the file, if
there is something to remove. -/
theorem Engine.deleteEntry?_eq_ok_some {name : String} :
    deleteEntry? d path name = .ok (some d') ↔
      ∃ doc new, readDocument d path = .ok doc ∧ Roster.remove? doc name = .ok (some new) ∧
        writeDocument d path new = .ok d' := by
  unfold deleteEntry?
  rw [Setup.bind_eq_ok]
  simp only [Setup.within_eq_ok, Setup.optional_bind_eq_ok]
  constructor
  · rintro ⟨doc, read, ⟨-, absurd⟩ | ⟨new, removed, h⟩⟩
    · cases absurd
    · obtain ⟨d₁, written, same⟩ := Setup.bind_eq_ok.mp h
      cases same
      exact ⟨doc, new, read, removed, written⟩
  · rintro ⟨doc, new, read, removed, written⟩
    exact ⟨doc, read, .inr ⟨new, removed, Setup.bind_eq_ok.mpr ⟨d', written, rfl⟩⟩⟩

/-- A call that changes the disk reads a document, works on it and writes what comes of it. -/
theorem FileCall.onDisk_eq_some :
    c.onDisk d path = .ok (some d') ↔ ∃ doc new, c.source d path = .ok doc ∧
      c.edit doc = .ok (some new) ∧ Engine.writeDocument d path new = .ok d' := by
  cases c with
  | save logger overwrite =>
    simp only [onDisk, edit, Setup.map_eq_ok, Option.some.injEq, exists_eq_right]
    exact Engine.saveLevel_eq_ok
  | delete name => exact Engine.deleteEntry?_eq_ok_some

/-- A call either fails or finds nothing to do, and leaves the session as it was, or changes the
disk. -/
theorem Session.callFile_eq (s : Session) (path : String) (c : FileCall) :
    s.callFile path c =
      match c.onDisk s.disk path with
      | .error e => (.error e, s)
      | .ok none => (.ok false, s)
      | .ok (some d) => (.ok true, s.withDisk d) := by
  cases c with
  | save logger overwrite =>
    rw [callFile, save, FileCall.onDisk, disk]
    cases Engine.saveLevel s.engine.world.disk path logger.name logger.level overwrite <;> rfl
  | delete name =>
    rw [callFile, delete, FileCall.onDisk, disk]
    cases Engine.deleteEntry? s.engine.world.disk path name with
    | error e => rfl
    | ok found => cases found <;> rfl

/-- One call on a file is lawful, and leaves a file or nothing at the path. -/
theorem Session.callFile_lawful (sound : s.disk.Sound) (plain : s.disk.FileOrNothing path)
    (c : FileCall) :
    let r := s.callFile path c
    FileStep.Lawful path ⟨s, c, r.1, r.2⟩ ∧ r.2.disk.Sound ∧ r.2.disk.FileOrNothing path := by
  -- The file changes where the call reads, edits and writes it, and only there.
  by_cases changed : ∃ d', c.onDisk s.disk path = .ok (some d')
  · obtain ⟨d', changes⟩ := changed
    obtain ⟨doc, new, source, edit, written⟩ := FileCall.onDisk_eq_some.mp changes
    rcases Engine.writeDocument_cases sound plain new with
      ⟨-, failed⟩ | ⟨-, d₁, written₁, replaces⟩
    · exact absurd written (failed d')
    · cases Except.ok.inj (written.symm.trans written₁)
      rw [callFile_eq, changes]
      refine ⟨⟨?_, ?_, ?_, replaces.others⟩, replaces.sound, replaces.fileOrNothing⟩
      · exact fun _ _ _ _ _ => rfl
      · exact fun _ => ⟨doc, new, source, edit, Engine.holds_of_replaces replaces⟩
      · exact fun other => absurd rfl other
  · have same : (s.callFile path c).1 ≠ .ok true ∧ (s.callFile path c).2 = s := by
      rw [callFile_eq]
      split
      · exact ⟨nofun, rfl⟩
      · exact ⟨nofun, rfl⟩
      · rename_i d' changes
        exact absurd ⟨d', changes⟩ changed
    obtain ⟨unsuccessful, same⟩ := same
    refine ⟨⟨?_, ?_, ?_, ?_⟩, ?_, ?_⟩
    · intro doc new source edit opens
      rcases Engine.writeDocument_cases sound plain new with
        ⟨refused, -⟩ | ⟨-, d', written, -⟩
      · exact absurd opens refused
      · exact absurd ⟨d', FileCall.onDisk_eq_some.mpr ⟨doc, new, source, edit, written⟩⟩ changed
    · exact fun successful => absurd successful unsuccessful
    · exact fun _ => same
    · intro q _
      exact congrArg (fun s' : Session => s'.disk.textAt q) same
    · rw [same]
      exact sound
    · rw [same]
      exact plain

/-! ## Calls in turn -/

/-- Whatever calls are made on a path where there is a file or nothing: each of them has either
replaced the document as it should, or changed nothing. -/
theorem Session.calls_lawful (sound : s.disk.Sound) (plain : s.disk.FileOrNothing path)
    (cs : List FileCall) : ∀ step ∈ s.steps path cs, step.Lawful path := by
  induction cs generalizing s with
  | nil => exact fun step mem => absurd mem List.not_mem_nil
  | cons c cs ih =>
    obtain ⟨lawful, sound', plain'⟩ := callFile_lawful sound plain c
    intro step mem
    rw [steps, List.mem_cons] at mem
    rcases mem with rfl | later
    · exact lawful
    · exact ih sound' plain' step later

/-- A file whose only logger has no level. -/
def oneLogger : Session :=
  .start ⟨⟨Disk.empty.items ++ [(["levels"], .file 0)],
    [Text.encode "[[logger]]\nname = \"net\"\n".toList]⟩, [], [], .never, ⟨0, 0, 0⟩, 7⟩

/-- A level is saved beside the name; an entry that is not there is not removed, and the one that is
there goes. -/
theorem saved_then_deleted :
    let steps := oneLogger.steps "levels"
      [.save ⟨"net", .warn, .standard, [], .direct⟩ false, .delete "db", .delete "net"]
    steps.map (fun step => step.told.toOption) = [some true, some false, some true] ∧
      Document.ReadsBack
        [("logger", .array [.table [("name", .text "net"), ("level", .text "warn")]])] ∧
      ∀ step ∈ steps, step.Lawful "levels" := by
  have sound : oneLogger.disk.Sound := Disk.sound_of_ids (by decide) (by decide)
  have plain : oneLogger.disk.FileOrNothing "levels" := by
    intro item here
    exact ⟨0, (Option.some.inj here).symm⟩
  exact ⟨by decide +kernel, by decide +kernel, Session.calls_lawful sound plain _⟩

end LogTopology
