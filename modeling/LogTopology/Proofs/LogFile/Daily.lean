import LogTopology.LogFile.Daily
import LogTopology.Proofs.Calendar.NextChange
import LogTopology.Proofs.Disk.Paths
import LogTopology.Proofs.LogFile.Dates
/-!
# What a log file of a day keeps

A log file that changes once a day goes by the times of its records, and these come in any order.
When it changes next is told by all times so far, whatever their order; which file a line goes into
is told by the last record that came at or after a change. Every such file keeps what it held and
the lines of its day behind that, in the order in which they were logged, also when a change opens
the file that was open already. Where a file cannot be opened the call tells why, and nothing else
happens than that the buffer may have been written out.

A call whose file cannot be opened leaves its line out, and its time does not count.

`Daily.Logs` has a rule for each of the three ways in which a call may go, and `Writes.log_cases`
finds the one that applies. `Runs` is the invariant of a course of calls; it says which file is
open, when the next change is and what the text of every day is, and an entry that goes in keeps it
(`Runs.enter`). What a course keeps and what its next call answers are then read off from it
(`Runs.keeps`, `Runs.answers`).

Files of days are regular here: a device in the place of one has no text to keep.
-/

namespace LogTopology.LogFile

open Calendar (Date WallTime)
open Calendar.WallTime (nextTime Earliest)
open Text (Bytes)

/-! ## Lines and their days -/

/-- A line with the time of its record. -/
structure Entry where
  time : WallTime
  line : Bytes
  deriving DecidableEq, Repr

/-- The date of the file that is written to after records of some times, the last one first: the
date of the last record that came at the next change or after it, and the first date before. -/
def dateOf (second : Nat) (start : WallTime) : List WallTime → Date
  | [] => start.date
  | t :: times =>
    if t.before (nextTime second start times) then dateOf second start times else t.date

/-- The lines of one day in the order in which they were logged; the entries have the last one
first. -/
def linesOf (second : Nat) (start : WallTime) (date : Date) : List Entry → Bytes
  | [] => []
  | e :: earlier =>
    linesOf second start date earlier ++
      if dateOf second start (e.time :: earlier.map (·.time)) = date then e.line else []

/-! ## Calls in turn -/

/-- A log file, its disk, and the entries that went in, the last one first. -/
structure Course where
  file : Daily
  disk : Disk
  history : List Entry

namespace Course

/-- The times of the entries that went in, the last one first. -/
def times (c : Course) : List WallTime :=
  c.history.map (·.time)

/-- One call. An entry goes in if no error is told. -/
def log (c : Course) (e : Entry) : Option FileError × Course :=
  match c.file.log c.disk e.time e.line with
  | (none, file, disk) => (none, ⟨file, disk, e :: c.history⟩)
  | (some fault, file, disk) => (some fault, ⟨file, disk, c.history⟩)

/-- Calls in turn. -/
def logAll (c : Course) (entries : List Entry) : Course :=
  entries.foldl (fun c e => (c.log e).2) c

end Course

/-! ## The files of the days -/

/-- No file of a day is a device. -/
def Regular (d : Disk) (base : String) : Prop :=
  ∀ date, d.item? (dayName base date) ≠ some .nothing ∧ d.item? (dayName base date) ≠ some .full

/-- The text of a day: what is in its file, and in the buffer if it is the one that is open. -/
def Daily.text (f : Daily) (d : Disk) (date : Date) : Bytes :=
  d.textAt (dayName f.base date) ++ if f.path = dayName f.base date then f.writer.buffer else []

/-- A log file that writes to the end of the file of a day. -/
structure Daily.Writes (f : Daily) (d : Disk) (date : Date) (id : Nat) : Prop where
  sound : d.Sound
  regular : Regular d f.base
  path : f.path = dayName f.base date
  here : d.item? f.path = some (.file id)
  writer : f.writer.AtEnd d id

/-- What an operation on a log file leaves: it writes to the file of a day, this line has been added
to the text of that day, and no file has lost anything. -/
structure Daily.Adds (f : Daily) (d : Disk) (f' : Daily) (d' : Disk) (date : Date) (line : Bytes) :
    Prop where
  writes : ∃ id, f'.Writes d' date id
  texts : ∀ day, f'.text d' day = f.text d day ++ if day = date then line else []
  grows : d.Grows d'

/-- What one call does: the line goes into the file that is open, or into the one of its own date,
which is opened, or nowhere, when that one cannot be opened. -/
inductive Daily.Logs (f : Daily) (d : Disk) (date : Date) (now : WallTime) (line : Bytes) :
    Option FileError × Daily × Disk → Prop where
  | stayed {w : Writer} {d' : Disk} (early : now.before f.changeAt = true)
      (adds : f.Adds d { f with writer := w } d' date line) :
      Logs f d date now line (none, { f with writer := w }, d')
  | refused {fault : FileError} {w : Writer} {d' : Disk} (reached : now.before f.changeAt = false)
      (refused : d.openFault? (dayName f.base now.date) = some fault)
      (adds : f.Adds d { f with writer := w } d' date []) :
      Logs f d date now line (some fault, { f with writer := w }, d')
  | changed {w : Writer} {d' : Disk} (reached : now.before f.changeAt = false)
      (opened : d.openFault? (dayName f.base now.date) = none)
      (adds : f.Adds d ⟨f.base, f.second, w, dayName f.base now.date, now.nextAt f.second⟩ d'
        now.date line) :
      Logs f d date now line
        (none, ⟨f.base, f.second, w, dayName f.base now.date, now.nextAt f.second⟩, d')

variable {d d' d'' : Disk} {f f' f'' : Daily} {date date' day : Date} {id : Nat} {w : Writer}
  {now start : WallTime} {line bs : Bytes} {base : String} {hour minute second : Nat}

namespace Daily

/-! ## Writing -/

/-- The text of a day is in its file, except for what the open one still holds back. -/
theorem Writes.text_eq (writes : f.Writes d date id) (day : Date) :
    f.text d day = d.textAt (dayName f.base day) ++ if day = date then f.writer.buffer else [] := by
  unfold text
  rw [writes.path]
  by_cases same : day = date
  · rw [if_pos (by rw [same]), if_pos same]
  · rw [if_neg fun h => same (dayName_injective h).symm, if_neg same]

/-- Only one day has the file that is open. -/
theorem Writes.apart (writes : f.Writes d date id) (other : day ≠ date) :
    d.item? (dayName f.base day) ≠ some (.file id) := by
  intro same
  have here := writes.here
  rw [writes.path] at here
  obtain ⟨p, atDay, file⟩ := Disk.exists_place_of_item? same
  obtain ⟨q, atDate, file'⟩ := Disk.exists_place_of_item? here
  rw [writes.sound.apart p q id file file'] at atDay
  exact other (date_eq_of_locate atDay atDate)

/-- A log file whose writer went on at the end of the file. -/
theorem Writes.adds_of_writer (writes : f.Writes d date id) (atEnd : w.AtEnd (d.setBytes id bs) id)
    (more : d.bytes id <+: bs) (whole : bs ++ w.buffer = d.bytes id ++ f.writer.buffer ++ line) :
    f.Adds d { f with writer := w } (d.setBytes id bs) date line := by
  have writes' : Writes { f with writer := w } (d.setBytes id bs) date id := by
    refine ⟨writes.sound.setBytes id bs, ?_, writes.path, ?_, atEnd⟩
    · intro day
      rw [Disk.item?_setBytes]
      exact writes.regular day
    · rw [Disk.item?_setBytes]
      exact writes.here
  refine ⟨⟨id, writes'⟩, ?_, Disk.grows_setBytes writes.writer.stored more⟩
  intro day
  rw [writes.text_eq, writes'.text_eq]
  by_cases same : day = date
  · have here := writes.here
    rw [writes.path, ← same] at here
    rw [if_pos same, if_pos same, if_pos same, Disk.textAt_setBytes_self writes.sound here,
      Disk.textAt_of_file here, whole]
  · rw [Disk.textAt_setBytes_of_ne (writes.apart same)]
    simp [same]

/-- A line that is written is added to the day of the open file. -/
theorem Writes.append_eq (writes : f.Writes d date id) (line : Bytes) :
    ∃ w d', f.append d line = (none, { f with writer := w }, d') ∧
      f.Adds d { f with writer := w } d' date line := by
  obtain ⟨w, text, hwrite, whole, more, atEnd⟩ := Writer.write_eq writes.writer line
  unfold append
  rw [hwrite]
  exact ⟨w, _, rfl, writes.adds_of_writer atEnd more whole⟩

/-- Writing out the buffer adds nothing to the text of any day. -/
theorem Writes.flush_eq (writes : f.Writes d date id) :
    ∃ w d', f.writer.flush d = (none, w, d') ∧ w.buffer = [] ∧
      f.Adds d { f with writer := w } d' date [] ∧
      ∀ path, d'.openFault? path = d.openFault? path := by
  obtain ⟨w, hflush, empty, atEnd⟩ := Writer.flush_eq writes.writer
  refine ⟨w, _, hflush, empty, ?_, Disk.openFault?_setBytes⟩
  apply writes.adds_of_writer atEnd (List.prefix_append _ _)
  simp [empty]

/-! ## Changing -/

/-- What was done before a line went in, without one itself. -/
theorem Adds.after_nil (first : f.Adds d f' d' date []) (second : f'.Adds d' f'' d'' date' line) :
    f.Adds d f'' d'' date' line := by
  refine ⟨second.writes, ?_, first.grows.trans second.grows⟩
  intro day
  rw [second.texts, first.texts]
  simp

/-- Once its file has been opened, a log file writes to the end of it. -/
theorem writes_of_opens {item : Item} {c : WallTime} (regular : Regular d base)
    (opens : Disk.Opens d d' (dayName base date) item) :
    ∃ id, Writes ⟨base, second, ⟨item, none, []⟩, dayName base date, c⟩ d' date id := by
  have regular' : Regular d' base := by
    intro day
    constructor
    · intro device
      rcases opens.items _ _ device with old | ⟨_, new⟩
      · exact (regular day).1 old
      · cases new
    · intro device
      rcases opens.items _ _ device with old | ⟨_, new⟩
      · exact (regular day).2 old
      · cases new
  obtain ⟨id, rfl⟩ : ∃ id, item = .file id := by
    cases item with
    | file id => exact ⟨id, rfl⟩
    | directory => exact absurd rfl opens.notDirectory
    | nothing => exact absurd opens.here (regular' date).1
    | full => exact absurd opens.here (regular' date).2
  have stored := Disk.stored_of_item? opens.sound opens.here
  exact ⟨id, opens.sound, regular', rfl, opens.here, rfl, stored, nofun⟩

/-- Opening the file of a day adds nothing. -/
theorem Writes.adds_of_opens {item : Item} {c : WallTime} (writes : f.Writes d date id)
    (empty : f.writer.buffer = []) (opens : Disk.Opens d d' (dayName f.base date') item) :
    f.Adds d ⟨f.base, f.second, ⟨item, none, []⟩, dayName f.base date', c⟩ d' date' [] := by
  refine ⟨writes_of_opens writes.regular opens, ?_, opens.grows⟩
  intro day
  rw [writes.text_eq, empty, text, opens.texts]
  simp

/-- A change opens the file of the date, or tells why it cannot be opened and stays with the old
one. -/
theorem Writes.change_cases (writes : f.Writes d date id) (now : WallTime) :
    (∃ fault w d', f.change d now = (some fault, { f with writer := w }, d') ∧
      d.openFault? (dayName f.base now.date) = some fault ∧
      f.Adds d { f with writer := w } d' date []) ∨
    ∃ w d', f.change d now =
        (none, ⟨f.base, f.second, w, dayName f.base now.date, now.nextAt f.second⟩, d') ∧
      d.openFault? (dayName f.base now.date) = none ∧
      f.Adds d ⟨f.base, f.second, w, dayName f.base now.date, now.nextAt f.second⟩ d' now.date
        [] := by
  obtain ⟨w, d₁, hflush, empty, flushed, faults⟩ := writes.flush_eq
  unfold change
  rw [hflush, ← faults]
  simp only [Writer.append]
  cases opening : d₁.openOrMake (dayName f.base now.date) with
  | error fault =>
    refine .inl ⟨fault, w, d₁, rfl, ?_, flushed⟩
    rw [Disk.openFault?, opening]
  | ok opened =>
    obtain ⟨item, d₂⟩ := opened
    obtain ⟨id', writes'⟩ := flushed.writes
    refine .inr ⟨_, d₂, rfl, ?_, ?_⟩
    · rw [Disk.openFault?, opening]
    · exact flushed.after_nil
        (writes'.adds_of_opens empty (Disk.opens_of_openOrMake writes'.sound opening))

/-- What one call does, read off the time of its record and off the disk. -/
theorem Writes.log_cases (writes : f.Writes d date id) (now : WallTime) (line : Bytes) :
    f.Logs d date now line (f.log d now line) := by
  unfold log
  cases early : now.before f.changeAt with
  | true =>
    obtain ⟨w, d', happend, adds⟩ := writes.append_eq line
    rw [if_pos rfl, happend]
    exact .stayed early adds
  | false =>
    rw [if_neg Bool.false_ne_true]
    rcases writes.change_cases now with
      ⟨fault, w, d', hchange, refused, adds⟩ | ⟨w, d', hchange, opened, adds⟩
    · rw [hchange]
      exact .refused early refused adds
    · rw [hchange]
      obtain ⟨id', writes'⟩ := adds.writes
      obtain ⟨w', d'', happend, adds'⟩ := writes'.append_eq line
      dsimp only
      rw [happend]
      exact .changed early opened (adds.after_nil adds')

/-- A log file is made by opening the file of the first day. -/
theorem make_eq (made : make d base hour minute start = .ok (f, d')) :
    ∃ item, d.openOrMake (dayName base start.date) = .ok (item, d') ∧
      f = ⟨base, hour * 3600 + minute * 60, ⟨item, none, []⟩, dayName base start.date,
        start.nextAt (hour * 3600 + minute * 60)⟩ := by
  unfold make at made
  split at made
  · cases made
  · obtain ⟨⟨w, d₁⟩, hopen, made⟩ := Setup.bind_eq_ok.mp made
    cases made
    unfold openLog at hopen
    rw [if_neg Bool.false_ne_true] at hopen
    cases opening : d.openOrMake (dayName base start.date) with
    | error fault =>
      rw [Writer.append, opening] at hopen
      cases hopen
    | ok opened =>
      rw [Writer.append, opening] at hopen
      cases hopen
      exact ⟨_, rfl, rfl⟩

end Daily

/-! ## Calls in turn -/

namespace Course

/-- What a log file that was made at some time on some disk has come to by the entries that went
in. -/
structure Runs (before : Disk) (base : String) (second : Nat) (start : WallTime) (c : Course) :
    Prop where
  sameBase : c.file.base = base
  sameSecond : c.file.second = second
  writes : ∃ id, c.file.Writes c.disk (dateOf second start c.times) id
  changeAt : c.file.changeAt = nextTime second start c.times
  texts : ∀ date, c.file.text c.disk date =
    before.textAt (dayName base date) ++ linesOf second start date c.history
  grows : before.Grows c.disk

/-- What a log file that was made at some time on some disk keeps of the entries that went in. -/
structure Keeps (before : Disk) (base : String) (second : Nat) (start : WallTime) (c : Course) :
    Prop where
  changeAt : Earliest second (start :: c.times) c.file.changeAt
  inAnyOrder : ∀ times, (∀ t, t ∈ times ↔ t ∈ c.times) →
    nextTime second start times = c.file.changeAt
  path : c.file.path = dayName base (dateOf second start c.times)
  texts : ∀ date, c.file.text c.disk date =
    before.textAt (dayName base date) ++ linesOf second start date c.history
  flushed : ∃ file disk, c.file.flush c.disk = (none, file, disk) ∧ ∀ date,
    disk.textAt (dayName base date) =
      before.textAt (dayName base date) ++ linesOf second start date c.history
  grows : before.Grows c.disk

/-- What a call on a log file tells, and what it leaves as it is. -/
structure Answers (base : String) (c : Course) (e : Entry) : Prop where
  told : (c.log e).1 = if e.time.before c.file.changeAt then none
    else c.disk.openFault? (dayName base e.time.date)
  forwards : (c.log e).2.file.changeAt.before c.file.changeAt = false
  refused : (c.log e).1 ≠ none → (c.log e).2.file.path = c.file.path ∧
    (c.log e).2.file.changeAt = c.file.changeAt ∧
    ∀ date, (c.log e).2.file.text (c.log e).2.disk date = c.file.text c.disk date
  grows : c.disk.Grows (c.log e).2.disk

variable {before : Disk} {c : Course} {e : Entry}

/-- A log file that was just made writes to the file of its first date. -/
theorem runs_of_make (sound : d.Sound) (regular : Regular d base)
    (made : Daily.make d base hour minute start = .ok (f, d')) :
    Runs d base (hour * 3600 + minute * 60) start ⟨f, d', []⟩ := by
  obtain ⟨item, opening, rfl⟩ := Daily.make_eq made
  have opens := Disk.opens_of_openOrMake sound opening
  refine ⟨rfl, rfl, Daily.writes_of_opens regular opens, rfl, ?_, opens.grows⟩
  intro date
  simp [Daily.text, opens.texts, linesOf]

/-- An entry goes in by being added to the text of its day. -/
theorem Runs.enter (runs : Runs before base second start c)
    (adds : c.file.Adds c.disk f' d' date e.line)
    (same : dateOf second start (e.time :: c.times) = date) (sameBase : f'.base = base)
    (sameSecond : f'.second = second)
    (changeAt : f'.changeAt = nextTime second start (e.time :: c.times)) :
    Runs before base second start ⟨f', d', e :: c.history⟩ := by
  refine ⟨sameBase, sameSecond, ?_, changeAt, ?_, runs.grows.trans adds.grows⟩
  · rw [times, List.map_cons, ← times, same]
    exact adds.writes
  · intro day
    rw [linesOf, ← times, same, adds.texts, runs.texts, List.append_assoc]
    simp only [eq_comm]

/-- One more entry, whether it went in or not. -/
theorem Runs.log (runs : Runs before base second start c) (e : Entry) :
    Runs before base second start (c.log e).2 := by
  obtain ⟨id, writes⟩ := runs.writes
  have logs := writes.log_cases e.time e.line
  unfold Course.log
  generalize c.file.log c.disk e.time e.line = result at logs
  cases logs with
  | @stayed w d' early adds =>
    rw [runs.changeAt] at early
    have date : dateOf second start (e.time :: c.times) = dateOf second start c.times := by
      rw [dateOf, if_pos early]
    refine runs.enter adds date runs.sameBase runs.sameSecond ?_
    rw [WallTime.nextTime_of_before early]
    exact runs.changeAt
  | @refused fault w d' reached refused adds =>
    refine ⟨runs.sameBase, runs.sameSecond, adds.writes, runs.changeAt, ?_,
      runs.grows.trans adds.grows⟩
    intro day
    rw [adds.texts, runs.texts]
    simp
  | @changed w d' reached opened adds =>
    rw [runs.changeAt] at reached
    have date : dateOf second start (e.time :: c.times) = e.time.date := by
      rw [dateOf, if_neg (ne_true_of_eq_false reached)]
    refine runs.enter adds date runs.sameBase runs.sameSecond ?_
    rw [WallTime.nextTime_of_reached reached, runs.sameSecond]

/-- Entries in turn, whatever their times. -/
theorem Runs.logAll (runs : Runs before base second start c) (entries : List Entry) :
    Runs before base second start (c.logAll entries) := by
  induction entries generalizing c with
  | nil => exact runs
  | cons e entries ih => exact ih (runs.log e)

/-- Calls that tell no error leave all their entries, the last one first. -/
theorem history_logAll (entries : List Entry)
    (went : ∀ before e after, entries = before ++ e :: after → ((c.logAll before).log e).1 = none) :
    (c.logAll entries).history = entries.reverse ++ c.history := by
  induction entries generalizing c with
  | nil => rfl
  | cons e entries ih =>
    have first : (c.log e).2.history = e :: c.history := by
      have told : (c.log e).1 = none := went [] e entries rfl
      unfold log at told ⊢
      split at told
      · rfl
      · cases told
    have rest := ih fun before e' after same => went (e :: before) e' after (by rw [same]; rfl)
    change ((c.log e).2.logAll entries).history = _
    rw [rest, first]
    simp

/-- What a log file has come to says what it keeps. -/
theorem Runs.keeps (runs : Runs before base second start c) : Keeps before base second start c where
  changeAt := by
    rw [runs.changeAt]
    exact WallTime.earliest_nextTime second start c.times
  inAnyOrder times same := by
    rw [runs.changeAt]
    apply (WallTime.earliest_nextTime second start times).unique
      (WallTime.earliest_nextTime second start c.times)
    simp [same]
  path := by
    obtain ⟨id, writes⟩ := runs.writes
    rw [writes.path, runs.sameBase]
  texts := runs.texts
  flushed := by
    obtain ⟨id, writes⟩ := runs.writes
    obtain ⟨w, disk, hflush, empty, adds, -⟩ := writes.flush_eq
    refine ⟨_, disk, by rw [Daily.flush, hflush], ?_⟩
    intro date
    have text := adds.texts date
    obtain ⟨id', writes'⟩ := adds.writes
    rw [writes'.text_eq, runs.texts] at text
    simpa [empty, runs.sameBase] using text
  grows := runs.grows

/-- What a log file has come to says what the next call tells. -/
theorem Runs.answers (runs : Runs before base second start c) (e : Entry) : Answers base c e := by
  obtain ⟨id, writes⟩ := runs.writes
  have logs := writes.log_cases e.time e.line
  cases done : c.file.log c.disk e.time e.line with | mk fault rest =>
  rw [done] at logs
  -- By what the entry meets: the day goes on, its file is refused, or a new file is opened.
  cases logs with
  | @stayed w d' early adds =>
    have step : c.log e = (none, ⟨{ c.file with writer := w }, d', e :: c.history⟩) := by
      rw [Course.log, done]
    refine ⟨?_, ?_, ?_, ?_⟩
    · rw [step, if_pos early]
    · rw [step]
      exact WallTime.before_self _
    · simp [step]
    · rw [step]
      exact adds.grows
  | @refused fault w d' reached refused adds =>
    have step : c.log e = (some fault, ⟨{ c.file with writer := w }, d', c.history⟩) := by
      rw [Course.log, done]
    refine ⟨?_, ?_, ?_, ?_⟩
    · rw [step, if_neg (ne_true_of_eq_false reached), ← runs.sameBase, refused]
    · rw [step]
      exact WallTime.before_self _
    · rw [step]
      refine fun _ => ⟨rfl, rfl, fun day => ?_⟩
      rw [adds.texts]
      simp
    · rw [step]
      exact adds.grows
  | @changed w d' reached opened adds =>
    have step : c.log e = (none, ⟨⟨c.file.base, c.file.second, w, dayName c.file.base e.time.date,
        e.time.nextAt c.file.second⟩, d', e :: c.history⟩) := by
      rw [Course.log, done]
    refine ⟨?_, ?_, ?_, ?_⟩
    · rw [step, if_neg (ne_true_of_eq_false reached), ← runs.sameBase, opened]
    · have old := runs.keeps.changeAt
      have new := (runs.log e).keeps.changeAt
      apply old.mono new
      rw [step]
      exact List.cons_subset_cons start (List.subset_cons_self e.time c.times)
    · simp [step]
    · rw [step]
      exact adds.grows

end Course

/-- Whatever entries are logged in a file of a day, in any order of their times, the file keeps
those that went in, each call tells whether its entry goes in, and an entry that does not go in
leaves everything as it is. -/
theorem daily_file_keeps_lines (sound : d.Sound) (regular : Regular d base)
    (made : Daily.make d base hour minute start = .ok (f, d')) (entries : List Entry) :
    Course.Keeps d base (hour * 3600 + minute * 60) start (Course.logAll ⟨f, d', []⟩ entries) ∧
      (∀ e, Course.Answers base (Course.logAll ⟨f, d', []⟩ entries) e) ∧
      ((∀ before e after, entries = before ++ e :: after →
          ((Course.logAll ⟨f, d', []⟩ before).log e).1 = none) →
        (Course.logAll ⟨f, d', []⟩ entries).history = entries.reverse) := by
  have runs := (Course.runs_of_make sound regular made).logAll entries
  refine ⟨runs.keeps, runs.answers, fun went => ?_⟩
  rw [Course.history_logAll entries went, List.append_nil]

/-- A disk without devices has none where the files of the days are. -/
theorem regular_of_items (plain : ∀ e ∈ d.items, e.2 ≠ .nothing ∧ e.2 ≠ .full) (base : String) :
    Regular d base := by
  have found : ∀ path item, d.item? path = some item → item ≠ .directory →
      ∃ e ∈ d.items, e.2 = item := by
    intro path item here notDirectory
    obtain ⟨p, -, here⟩ := Disk.exists_place_of_item? here
    have down := Disk.not_up (p := p) (d := d) (by simpa [here] using notDirectory)
    rw [Disk.at?_of_not_up down] at here
    exact ⟨_, mem_of_lookup here, rfl⟩
  intro date
  constructor
  · intro here
    obtain ⟨e, mem, device⟩ := found _ _ here nofun
    exact (plain e mem).1 device
  · intro here
    obtain ⟨e, mem, device⟩ := found _ _ here nofun
    exact (plain e mem).2 device

/-- A disk with a file of one day. -/
def firstOfMarch : Disk :=
  ⟨[(["day_2024-03-01.log"], .file 0)], [[1]]⟩

/-- Four lines of two days. The third one comes late. -/
def fourLines : List Entry :=
  [⟨⟨19783, 43200, 0⟩, [2]⟩, ⟨⟨19783, 64800, 5⟩, [3]⟩, ⟨⟨19783, 32400, 0⟩, [4]⟩,
    ⟨⟨19784, 63000, 0⟩, [5]⟩]

/-- A file that changes at half past five in the afternoon of a day is opened again for the rest of
it. A line from before that comes late stays in the file, and one that comes at the next change goes
into the file of the next day. -/
theorem lines_of_two_days :
    firstOfMarch.Sound ∧ Regular firstOfMarch "day.log" ∧
      ∃ f, Daily.make firstOfMarch "day.log" 17 30 ⟨19783, 36000, 0⟩ = .ok (f, firstOfMarch) ∧
        linesOf 63000 ⟨19783, 36000, 0⟩ ⟨2024, 3, 1⟩ fourLines.reverse = [2, 3, 4] ∧
        linesOf 63000 ⟨19783, 36000, 0⟩ ⟨2024, 3, 2⟩ fourLines.reverse = [5] ∧
        Course.Keeps firstOfMarch "day.log" 63000 ⟨19783, 36000, 0⟩
          (Course.logAll ⟨f, firstOfMarch, []⟩ fourLines) ∧
        (∀ e, Course.Answers "day.log" (Course.logAll ⟨f, firstOfMarch, []⟩ fourLines) e) ∧
        (Course.logAll ⟨f, firstOfMarch, []⟩ fourLines).history = fourLines.reverse := by
  have sound : firstOfMarch.Sound := Disk.sound_of_ids (by decide) (by decide)
  have regular : Regular firstOfMarch "day.log" := regular_of_items (by decide) _
  have made : Daily.make firstOfMarch "day.log" 17 30 ⟨19783, 36000, 0⟩ =
      .ok (⟨"day.log", 63000, ⟨.file 0, none, []⟩, "day_2024-03-01.log", ⟨19783, 63000, 0⟩⟩,
        firstOfMarch) := by
    have path : dayName "day.log" (WallTime.date ⟨19783, 36000, 0⟩) = "day_2024-03-01.log" := by
      decide
    unfold Daily.make openLog
    rw [path]
    rfl
  obtain ⟨keeps, answers, -⟩ := daily_file_keeps_lines sound regular made fourLines
  exact ⟨sound, regular, _, made, by decide, by decide, keeps, answers, by decide +kernel⟩

end LogTopology.LogFile
