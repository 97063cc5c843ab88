import LogTopology.Proofs.Overlay.Stops
import LogTopology.Proofs.Roster.Calls
/-!
# A level that is written and a level that is overlaid

The level of a logger can be changed in a document in two ways: it is written into the logger's
entry, or a document that holds nothing but an entry of that name and level is merged into it as an
overlay. Both come to the same on every document, one whose section of loggers is malformed
included: they end alike, and leave the same entries and keys in the same places.

`writeInPlace` is the first way taken step by step. The section is made when it is missing, the
entry is sought by its position and changed there, and what has been done to the document when the
section is refused stays done. No document is left with a section that was made in vain.

The two agree because the overlay's entry has the name of the entry that it is written over, so that
all it can change is the level.
-/

namespace LogTopology.Roster

open Document

/-- The document that holds a logger with a level and nothing else, the name first as in an entry
that is written new. -/
def levelOverlay (name : String) (level : Level) : Table :=
  [(key, .array [.table [("name", .text name), ("level", .text level.name)]])]

/-- Writes the level of a logger into its entry where that stands, or into a new entry behind the
others. -/
def placeLevel (name : String) (level : Level) (entries : List Table) : List Table :=
  match positionOf? entries name with
  | some i => entries.modify i (withLevel · level)
  | none => entries ++ [withLevel (bare name) level]

/-- Writes the level of a logger in place, and tells how that has ended and what the document has
become. -/
def writeInPlace (doc : Table) (name : String) (level : Level) : Setup Unit × Table :=
  let doc := if (doc.get? key).isSome then doc else setEntries doc key []
  match tableArray doc key with
  | .error e => (.error e, doc)
  | .ok none => (.error (.reported "Unable to create logger table array"), doc)
  | .ok (some entries) => (.ok (), setEntries doc key (placeLevel name level entries))

/-- Entries with the level of a logger written into them. -/
def levelled (name : String) (level : Level) (entries : List Table) : List Table :=
  if entries.any (isNamed name) then overwriteNamed name [("level", .text level.name)] entries
  else entries ++ [withLevel (bare name) level]

variable {doc e fields : Table} {entries : List Table} {found : Option (List Table)} {name : String}
  {level : Level} {fault : SetupError}

/-! ## Entries -/

/-- Writing over an entry changes the entry at its position. -/
theorem modify_positionOf? {i : Nat} (here : positionOf? entries name = some i) (fields : Table) :
    entries.modify i (Table.insertAll · fields) = overwriteNamed name fields entries := by
  unfold positionOf? at here
  induction entries generalizing i with
  | nil => cases here
  | cons e entries ih =>
    rw [List.findIdx?_cons] at here
    unfold overwriteNamed
    by_cases named : isNamed name e = true
    · rw [if_pos named] at here ⊢
      cases here
      rfl
    · rw [if_neg named] at here ⊢
      obtain ⟨j, later, rfl⟩ := Option.map_eq_some_iff.mp here
      rw [List.modify_succ_cons, ih later]

/-- Changing the entry at the position of a name is writing over the first entry of the name. -/
theorem placeLevel_eq (name : String) (level : Level) (entries : List Table) :
    placeLevel name level entries = levelled name level entries := by
  have present : entries.any (isNamed name) = (positionOf? entries name).isSome :=
    List.findIdx?_isSome.symm
  unfold placeLevel levelled
  rw [present]
  cases here : positionOf? entries name with
  | none => rfl
  | some i => exact modify_positionOf? here [("level", .text level.name)]

/-- An entry already has its name, so writing the name and the level over it writes the level. -/
theorem insertAll_of_named (named : entryName? e = some name) (level : Level) :
    e.insertAll [("name", .text name), ("level", .text level.name)] = withLevel e level := by
  obtain ⟨v, under, text⟩ := Option.bind_eq_some_iff.mp named
  have same : v = .text name := by
    cases v with
    | text s => exact congrArg Value.text (Option.some.inj text)
    | integer | float | boolean | datetime | array | table => cases text
  have kept : e.insert "name" (.text name) = e := by
    rw [same] at under
    exact writeNamed_of_lookup under
  change (e.insert "name" _).insert "level" _ = _
  rw [kept]
  rfl

/-- An entry that has the name as well changes no more than one that has only the level. -/
theorem overwriteNamed_entry (name : String) (level : Level) (entries : List Table) :
    overwriteNamed name (withLevel (bare name) level) entries =
      overwriteNamed name [("level", .text level.name)] entries := by
  induction entries with
  | nil => rfl
  | cons e entries ih =>
    unfold overwriteNamed
    by_cases named : isNamed name e = true
    · rw [if_pos named, if_pos named]
      exact congrArg (· :: entries) (insertAll_of_named (isNamed_iff.mp named) level)
    · rw [if_neg named, if_neg named, ih]

/-- Laying the entry of a logger over the others writes its level into them. -/
theorem lay_entry (name : String) (level : Level) (entries : List Table) :
    Overlay.lay entries (withLevel (bare name) level) = levelled name level entries := by
  have named : entryName? (withLevel (bare name) level) = some name := entryName?_withLevel ..
  unfold Overlay.lay levelled
  rw [named]
  simp only [overwriteNamed_entry]

/-! ## Documents -/

/-- Of two settings of the section the second counts. -/
theorem setEntries_setEntries (doc : Table) (first second : List Table) :
    setEntries (setEntries doc key first) key second = setEntries doc key second :=
  writeNamed_writeNamed

/-- Where the section can be read, writing a level gives the levelled entries. -/
theorem upsertLevel_of_listed (listed : tableArray doc key = .ok found) (name : String)
    (level : Level) :
    upsertLevel doc name level =
      .ok (setEntries doc key (levelled name level (found.getD []))) := by
  unfold upsertLevel levelled
  rw [listed]
  simp only [bind, Except.bind]
  split
  · rfl
  · rfl

/-- Where the section is malformed, writing a level is refused for that. -/
theorem upsertLevel_of_refused (refused : tableArray doc key = .error fault) (name : String)
    (level : Level) : upsertLevel doc name level = .error fault := by
  unfold upsertLevel
  rw [refused]
  rfl

/-- An overlay with nothing but loggers merges their section alone. -/
theorem merge_levelOverlay (doc : Table) (name : String) (level : Level) :
    (Overlay.merge doc (levelOverlay name level)).result =
        (Overlay.mergeSection doc (levelOverlay name level) key).result ∧
      (Overlay.merge doc (levelOverlay name level)).outcome =
        (Overlay.mergeSection doc (levelOverlay name level) key).outcome := by
  have sinks : Overlay.mergeSection doc (levelOverlay name level) "sink" = ⟨doc, [], .ok ()⟩ := rfl
  have patterns : Overlay.mergeSection doc (levelOverlay name level) "pattern" =
      ⟨doc, [], .ok ()⟩ := rfl
  simp only [Overlay.merge, Overlay.sections, Overlay.mergeSections, sinks, patterns]
  change _ = (Overlay.mergeSection doc (levelOverlay name level) "logger").result ∧
    _ = (Overlay.mergeSection doc (levelOverlay name level) "logger").outcome
  cases (Overlay.mergeSection doc (levelOverlay name level) "logger").outcome with
  | error fault => exact ⟨rfl, rfl⟩
  | ok _ => exact ⟨rfl, rfl⟩

/-- Where the section can be read, merging the overlay gives the levelled entries. -/
theorem merge_of_listed (listed : tableArray doc key = .ok found) (name : String) (level : Level) :
    (Overlay.merge doc (levelOverlay name level)).result =
        setEntries doc key (levelled name level (found.getD [])) ∧
      (Overlay.merge doc (levelOverlay name level)).outcome = .ok () := by
  obtain ⟨result, outcome⟩ := merge_levelOverlay doc name level
  have given : tableArray (levelOverlay name level) key =
      .ok (some [withLevel (bare name) level]) := rfl
  rw [result, outcome]
  unfold Overlay.mergeSection
  rw [given, listed]
  cases found with
  | none => exact ⟨rfl, rfl⟩
  | some entries =>
    have labelled : ∀ e ∈ [withLevel (bare name) level], (entryName? e).isSome :=
      List.forall_mem_singleton.mpr rfl
    obtain ⟨laid, done⟩ := Overlay.mergeEntries_of_named key labelled entries
    simp only [laid, done, Option.getD_some, ← lay_entry]
    exact ⟨rfl, trivial⟩

/-- Where the section is malformed, the merge is refused for that and leaves the document. -/
theorem merge_of_refused (refused : tableArray doc key = .error fault) (name : String)
    (level : Level) :
    (Overlay.merge doc (levelOverlay name level)).result = doc ∧
      (Overlay.merge doc (levelOverlay name level)).outcome = .error fault := by
  obtain ⟨result, outcome⟩ := merge_levelOverlay doc name level
  have given : tableArray (levelOverlay name level) key =
      .ok (some [withLevel (bare name) level]) := rfl
  rw [result, outcome]
  unfold Overlay.mergeSection
  rw [given, refused]
  exact ⟨rfl, rfl⟩

/-- Where the section can be read, writing in place gives the levelled entries. -/
theorem writeInPlace_of_listed (listed : tableArray doc key = .ok found) (name : String)
    (level : Level) :
    writeInPlace doc name level =
      (.ok (), setEntries doc key (levelled name level (found.getD []))) := by
  unfold writeInPlace
  cases found with
  | none =>
    have made : tableArray (setEntries doc key []) key = .ok (some []) :=
      tableArray_eq_ok_some.mpr (by rw [get?_setEntries, if_pos rfl])
    rw [tableArray_eq_ok_none.mp listed]
    simp only [Option.isSome_none, Bool.false_eq_true, if_false, made, placeLevel_eq,
      setEntries_setEntries, Option.getD_none]
  | some entries =>
    rw [tableArray_eq_ok_some.mp listed]
    simp only [Option.isSome_some, if_true, listed, placeLevel_eq, Option.getD_some]

/-- Where the section is malformed, writing in place is refused for that and leaves the document. -/
theorem writeInPlace_of_refused (refused : tableArray doc key = .error fault) (name : String)
    (level : Level) : writeInPlace doc name level = (.error fault, doc) := by
  obtain ⟨-, v, present, -⟩ := misshapen_of_tableArray refused
  unfold writeInPlace
  rw [present]
  simp only [Option.isSome_some, if_true, refused]

/-- **A level that is written is a level that is overlaid.** On every document, writing the level of
a logger ends as merging the overlay with the logger's entry does, with the same error if there is
one, and leaves the same document; so does writing it in place. -/
theorem level_written_as_overlaid (doc : Table) (name : String) (level : Level) :
    call doc (.upsert name level) =
        ((Overlay.merge doc (levelOverlay name level)).outcome.map fun _ => true,
          (Overlay.merge doc (levelOverlay name level)).result) ∧
      writeInPlace doc name level =
        ((Overlay.merge doc (levelOverlay name level)).outcome,
          (Overlay.merge doc (levelOverlay name level)).result) := by
  cases listed : tableArray doc key with
  | error fault =>
    obtain ⟨result, outcome⟩ := merge_of_refused listed name level
    rw [result, outcome, writeInPlace_of_refused listed]
    simp only [call, upsertLevel_of_refused listed]
    exact ⟨rfl, trivial⟩
  | ok found =>
    obtain ⟨result, outcome⟩ := merge_of_listed listed name level
    rw [result, outcome, writeInPlace_of_listed listed]
    simp only [call, upsertLevel_of_listed listed]
    exact ⟨rfl, trivial⟩

end LogTopology.Roster
