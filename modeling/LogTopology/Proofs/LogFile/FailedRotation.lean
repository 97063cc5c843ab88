import LogTopology.Proofs.LogFile.Barred
/-!
# A rotation that fails

A log file is put aside for a line that would make it too large. When its copies cannot all move,
that line is lost, but nothing else is: the file holds all that was logged before, and the copies
are as they were (`failed_rotation_destroys_nothing`). Otherwise only the copy with the highest
number may go, and a directory among the copies moves with all that is in it (`PutAside`).

All this is told of a log file in use (`InUse`), whatever its copies are. A log file that was opened
where there is a regular file or nothing stays in use whatever is logged, as long as nobody else
touches the live file (`Lives.exists_inUse`).

The order of events decides: the buffer is written out before the first copy moves, and what can
stop the loop is met before any copy has moved: only the first turn can find something where it
moves a copy to (`Turn.target_free`), and above a copy whose next name is too long there are no
copies. `InUse` does not ask what the copies are, so it is kept by lines that fit, by rotations that
put the file aside, by those that are barred, and by others who touch the copies; `Lives` collects
these as the events of a life.

A copy with the highest number may be lost without having been barred, when it is a file. Lines are
not followed through the copies here.
-/

namespace LogTopology.LogFile

open Text (Bytes)
open Rotating

variable {d d' : Disk} {base : String} {dir : Place} {n id : Nat} {text : Bytes} {r : Rotating}

/-! ## A log file in use -/

/-- A log file in use among copies that may be anything: it writes to the end of the live file, and
that file and the buffer hold the given text. -/
structure InUse (r : Rotating) (dir : Place) (id : Nat) (text : Bytes) (d : Disk) : Prop where
  running : Running r.base 0 dir id r.writer r.size d
  rooted : d.Rooted
  clear : ∀ j, 0 < j → j < r.maxFiles → Clear r.base j
  text : d.bytes id ++ r.writer.buffer = text

namespace InUse

/-- A log file in use stands on the grounds that its copies need. -/
theorem grounds (use : InUse r dir id text d) : Grounds r.base dir d :=
  ⟨use.running.leads, use.running.sound, use.rooted⟩

/-- The live file has a name that the disk takes, and is at its place. -/
theorem live (use : InUse r dir id text d) :
    Named dir r.base 0 ∧ d.at? (copyPlace dir r.base 0) = some (.file id) := by
  obtain ⟨p, located, here⟩ := Disk.exists_place_of_item? use.running.live
  obtain ⟨named, rfl⟩ := use.grounds.named_of_locate (i := 0) located
  exact ⟨named, here⟩

/-- The live file is no directory, so no path leads through it. -/
theorem clear_all (use : InUse r dir id text d) (j : Nat) (below : j < r.maxFiles) :
    Clear r.base j := by
  by_cases first : j = 0
  · rw [first]
    exact use.grounds.clear (by rw [use.live.2]; exact nofun)
  · exact use.clear j (by omega) below

/-- The tracked size is the length of what was logged. -/
theorem size_eq (use : InUse r dir id text d) : r.size = text.length := by
  rw [use.running.size, use.text]

/-- The file stays in use when its writer comes to the end of what it then holds. -/
theorem of_writer (use : InUse r dir id text d) {w : Writer} {whole : Bytes}
    (atEnd : w.AtEnd (d.setBytes id whole) id) :
    InUse { r with writer := w, size := (whole ++ w.buffer).length } dir id (whole ++ w.buffer)
      (d.setBytes id whole) :=
  ⟨use.running.toSite.write atEnd, use.rooted, use.clear, by
    rw [Disk.bytes_setBytes_self use.running.writer.stored]⟩

/-- Writing out the buffer leaves the whole text in the file. -/
theorem exists_flush (use : InUse r dir id text d) :
    ∃ w, r.writer.flush d = (none, w, d.setBytes id text) ∧ w.buffer = [] ∧
      InUse { r with writer := w } dir id text (d.setBytes id text) := by
  obtain ⟨w, flushed, empty, atEnd⟩ := Writer.flush_eq use.running.writer
  rw [use.text] at flushed atEnd
  have after := use.of_writer atEnd
  rw [empty, List.append_nil, ← use.size_eq] at after
  exact ⟨w, flushed, empty, after⟩

/-- A line that is written goes behind the text. -/
theorem exists_append (use : InUse r dir id text d) (line : Bytes) :
    ∃ w d', r.append d line = (none, { r with writer := w, size := r.size + line.length }, d') ∧
      InUse { r with writer := w, size := r.size + line.length } dir id (text ++ line) d' := by
  obtain ⟨w, whole, written, same, -, atEnd⟩ := Writer.write_eq use.running.writer line
  have after := use.of_writer atEnd
  rw [use.text] at same
  rw [same, List.length_append, ← use.size_eq] at after
  refine ⟨w, _, ?_, after⟩
  rw [Rotating.append, written]

/-- A rotation that is barred leaves everything as it was, with the whole text in the live file. -/
theorem rotate_of_barred (use : InUse r dir id text d) {e : FileError}
    (barred : Barred d r.base r.maxFiles e) :
    ∃ w, r.rotate d = (some e, { r with writer := w }, d.setBytes id text) ∧ w.buffer = [] ∧
      InUse { r with writer := w } dir id text (d.setBytes id text) := by
  obtain ⟨w, flushed, empty, after⟩ := use.exists_flush
  have loop := shiftBelow_of_barred after.grounds after.live.1 (barred_setBytes_iff.mpr barred)
  refine ⟨w, ?_, empty, after⟩
  rw [Rotating.rotate, flushed]
  simp only [loop]

end InUse

/-! ## Putting the file aside -/

/-- What is at one copy is found at another one later, with all that is in it. -/
def Found (base : String) (before : Disk) (i : Nat) (after : Disk) (j : Nat) : Prop :=
  ∃ s t, before.locate (copyName base i) = .ok s ∧ after.locate (copyName base j) = .ok t ∧
    before.SameTree s after t

/-- The live file has been put aside with its text, and a new one is there. -/
structure PutAside (base : String) (dir : Place) (n id : Nat) (text : Bytes)
    (before after : Disk) : Prop where
  /-- What was there below the last number is found one higher. -/
  lifted : ∀ j, j < n → before.pathExists (copyName base j) = true →
    Found base before j after (j + 1)
  /-- What was there under the last number stays if there was nothing to move there. -/
  last : before.pathExists (copyName base n) = true →
    before.pathExists (copyName base (n - 1)) = false → Found base before n after n
  outside : ∀ q, (∀ j, j ≤ n → ¬copyPlace dir base j <+: q) → after.at? q = before.at? q
  texts : ∀ other, other < before.contents.length →
    after.bytes other = (before.setBytes id text).bytes other
  live : after.item? base = some (.file before.contents.length)
  empty : after.bytes before.contents.length = []

/-- A new live file leaves the grounds for the copies. -/
theorem Grounds.of_fresh (grounds : Grounds base dir d)
    (free : d.at? (copyPlace dir base 0) = none)
    (puts : Disk.Puts d d' (copyPlace dir base 0) (some (.file d.contents.length)))
    (contents : d'.contents = d.contents ++ [[]]) : Grounds base dir d' := by
  have other : d.at? (copyPlace dir base 0) ≠ some .directory := by
    rw [free]
    exact nofun
  exact ⟨grounds.leads.of_keeps (puts.keeps other), grounds.sound.of_puts_new puts contents,
    grounds.rooted.of_puts puts other fun _ _ => grounds.parent⟩

/-- A new live file after all copies have moved: the file has been put aside. -/
theorem putAside_of_lifted {room : Disk} {k : Nat} (grounds : Grounds base dir d)
    (live : Named dir base 0) (free : ∀ e, ¬Barred d base n e)
    (lifted : Lifted dir base k (d.setBytes id text) room) (low : k ≤ n)
    (filled : k = n → d.pathExists (copyName base (n - 1)) = true)
    (gone : ∀ j, k ≤ j → j < n → d.pathExists (copyName base j) = false)
    (puts : Disk.Puts room d' (copyPlace dir base 0) (some (.file d.contents.length)))
    (contents : d'.contents = room.contents ++ [[]]) (grounds' : Grounds base dir d') :
    PutAside base dir n id text d d' := by
  have sameLength : room.contents.length = d.contents.length := by
    rw [lifted.contents, Disk.length_contents_setBytes]
  -- Opening the live file changes nothing at or below the places of the copies.
  have elsewhere (j : Nat) (copy : j ≠ 0) (rest : Place) :
      d'.at? (copyPlace dir base j ++ rest) = room.at? (copyPlace dir base j ++ rest) := by
    rw [puts, if_neg]
    intro same
    exact not_below copy ⟨rest, same⟩
  constructor
  case lifted =>
    intro j below present
    have below' : j < k := by
      by_contra high
      rw [gone j (by omega) below] at present
      cases present
    refine ⟨_, _, grounds.locate_eq (grounds.pathExists_iff.mp present).1,
      grounds'.locate_eq (named_of_free grounds free below present), fun rest => ?_⟩
    rw [elsewhere (j + 1) (Nat.succ_ne_zero j)]
    exact lifted.copies j below' rest
  case last =>
    intro present none
    have above : k < n := by
      refine Nat.lt_of_le_of_ne low fun same => ?_
      rw [filled same] at none
      cases none
    have named := (grounds.pathExists_iff.mp present).1
    refine ⟨_, _, grounds.locate_eq named, grounds'.locate_eq named, fun rest => ?_⟩
    rw [elsewhere n (by omega)]
    exact lifted.above above rest
  case outside =>
    intro q out
    rw [puts, if_neg, lifted.outside q fun j bound => out j (by omega)]
    · rfl
    · rintro rfl
      exact out 0 (Nat.zero_le n) (List.prefix_refl _)
  case texts =>
    intro other stored
    rw [Disk.bytes_append_new contents (by omega), Disk.bytes, lifted.contents]
    rfl
  case live =>
    have here : d'.item? base = d'.at? (copyPlace dir base 0) :=
      Disk.item?_of_locate (grounds'.locate_eq (i := 0) live)
    rw [here, puts, if_pos rfl]
  case empty =>
    rw [Disk.bytes, contents, ← sameLength, List.getElem?_concat_length]
    rfl

namespace InUse

/-- A file that was started anew is in use. -/
theorem of_fresh (use : InUse r dir id text d) {fresh : Nat} (grounds : Grounds r.base dir d')
    (live : d'.item? r.base = some (.file fresh)) (empty : d'.bytes fresh = []) :
    InUse { r with writer := ⟨.file fresh, some 0, []⟩, size := 0 } dir fresh [] d' := by
  have site := site_of_live grounds.leads grounds.sound live
  refine ⟨⟨site, ⟨rfl, site.stored, ?_⟩, ?_⟩, grounds.rooted, use.clear, ?_⟩
  · rintro position ⟨⟩
    rw [empty]
    rfl
  · rw [empty]
    rfl
  · rw [empty]
    rfl

/-- A rotation that nothing bars puts the file aside. -/
theorem exists_rotate (use : InUse r dir id text d) (copies : 0 < r.maxFiles)
    (free : ∀ e, ¬Barred d r.base r.maxFiles e) :
    ∃ w d', r.rotate d = (none, { r with writer := w, size := 0 }, d') ∧
      PutAside r.base dir r.maxFiles id text d d' ∧
      InUse { r with writer := w, size := 0 } dir d.contents.length [] d' := by
  obtain ⟨w, flushed, -, after⟩ := use.exists_flush
  obtain ⟨k, room, loop, lifted, low, filled, gone⟩ := exists_lifted after.grounds after.live.1
    copies after.clear_all fun e barred => free e (barred_setBytes_iff.mp barred)
  simp only [Disk.pathExists_setBytes] at filled gone
  have freed : room.at? (copyPlace dir r.base 0) = none := by
    rw [← List.append_nil (copyPlace dir r.base 0), lifted.first]
  obtain ⟨d', started, puts, contents⟩ := exists_fresh
    (lifted.grounds.locate_eq (i := 0) use.live.1) freed
    (endsWithSlash_copyName lifted.grounds.leads 0)
  have grounds' := lifted.grounds.of_fresh freed puts contents
  rw [lifted.contents, Disk.length_contents_setBytes] at started puts
  have aside := putAside_of_lifted use.grounds use.live.1 free lifted low filled gone puts contents
    grounds'
  refine ⟨_, d', ?_, aside, use.of_fresh grounds' aside.live aside.empty⟩
  rw [Rotating.rotate, flushed]
  simp only [loop]
  have started' : Writer.fresh room r.base = _ := started
  rw [started']

end InUse

/-! ## Logging a line -/

variable {line : Bytes} {fault : Option FileError} {r' : Rotating}

/-- A line that fits is appended. -/
theorem log_of_fits (fits : ¬(0 < r.size ∧ r.maxSize < r.size + line.length)) :
    r.log d line = r.append d line := by
  rw [Rotating.log, if_neg]
  simpa only [Bool.and_eq_true, decide_eq_true_eq] using fits

/-- A line that does not fit is appended once the file has been put aside, and else it is lost. -/
theorem log_of_full (full : 0 < r.size ∧ r.maxSize < r.size + line.length) :
    (∀ e w d', r.rotate d = (some e, w, d') → r.log d line = (some e, w, d')) ∧
      ∀ r' d', r.rotate d = (none, r', d') → r.log d line = r'.append d' line := by
  have taken : (decide (0 < r.size) && decide (r.maxSize < r.size + line.length)) = true := by
    simpa only [Bool.and_eq_true, decide_eq_true_eq] using full
  constructor
  · intro e w d' rotated
    rw [Rotating.log, if_pos taken, rotated]
  · intro r' d' rotated
    rw [Rotating.log, if_pos taken, rotated]

namespace InUse

/-- A line for which the file is put aside is alone in the new one. -/
theorem exists_log_of_free (use : InUse r dir id text d) (copies : 0 < r.maxFiles)
    (free : ∀ e, ¬Barred d r.base r.maxFiles e) (line : Bytes)
    (full : 0 < r.size ∧ r.maxSize < r.size + line.length) :
    ∃ w d', r.rotate d = (none, { r with writer := w, size := 0 }, d') ∧
      PutAside r.base dir r.maxFiles id text d d' ∧
      ∃ w' d'', r.log d line = (none, { r with writer := w', size := line.length }, d'') ∧
        InUse { r with writer := w', size := line.length } dir d.contents.length line d'' := by
  obtain ⟨w, d', rotated, aside, fresh⟩ := use.exists_rotate copies free
  obtain ⟨w', d'', appended, after⟩ := fresh.exists_append line
  simp only [Nat.zero_add] at appended after
  refine ⟨w, d', rotated, aside, w', d'', ?_, after⟩
  rw [(log_of_full full).2 _ _ rotated, appended]

/-- A line that finds the rotation barred is written nowhere. -/
theorem exists_log_of_barred (use : InUse r dir id text d) {e : FileError}
    (barred : Barred d r.base r.maxFiles e) (line : Bytes)
    (full : 0 < r.size ∧ r.maxSize < r.size + line.length) :
    ∃ w, r.log d line = (some e, { r with writer := w }, d.setBytes id text) ∧ w.buffer = [] ∧
      InUse { r with writer := w } dir id text (d.setBytes id text) := by
  obtain ⟨w, rotated, empty, after⟩ := use.rotate_of_barred barred
  exact ⟨w, (log_of_full full).1 _ _ _ rotated, empty, after⟩

/-- Whatever comes of a line, the file stays in use. -/
theorem log (use : InUse r dir id text d) (copies : 0 < r.maxFiles)
    (h : r.log d line = (fault, r', d')) :
    ∃ id' text', InUse r' dir id' text' d' ∧ r'.base = r.base ∧ r'.maxFiles = r.maxFiles := by
  by_cases full : 0 < r.size ∧ r.maxSize < r.size + line.length
  · by_cases free : ∀ e, ¬Barred d r.base r.maxFiles e
    · obtain ⟨-, -, -, -, r₁, d₁, logged, after⟩ := use.exists_log_of_free copies free line full
      cases h.symm.trans logged
      exact ⟨_, _, after, rfl, rfl⟩
    · obtain ⟨e, barred⟩ := not_forall_not.mp free
      obtain ⟨w, logged, -, after⟩ := use.exists_log_of_barred barred line full
      cases h.symm.trans logged
      exact ⟨_, _, after, rfl, rfl⟩
  · obtain ⟨r₁, d₁, appended, after⟩ := use.exists_append line
    rw [log_of_fits full] at h
    cases h.symm.trans appended
    exact ⟨_, _, after, rfl, rfl⟩

/-- Writing out the buffer leaves the log file in use. -/
theorem flush (use : InUse r dir id text d) (h : r.flush d = (fault, r', d')) :
    InUse r' dir id text d' ∧ r'.base = r.base ∧ r'.maxFiles = r.maxFiles := by
  obtain ⟨w, flushed, -, after⟩ := use.exists_flush
  rw [Rotating.flush, flushed] at h
  cases h
  exact ⟨after, rfl, rfl⟩

/-- What others do to the copies does not matter. -/
theorem of_others (use : InUse r dir id text d) (sound : d'.Sound) (rooted : d'.Rooted)
    (live : d'.item? r.base = d.item? r.base) (same : d'.bytes id = d.bytes id) :
    ∃ dir', InUse r dir' id text d' := by
  have here : d'.item? r.base = some (.file id) := live.trans use.running.live
  obtain ⟨p, located, file⟩ := Disk.exists_place_of_item? here
  obtain ⟨dir', leads⟩ := leads_of_locate located (by rw [file]; exact nofun)
    (endsWithSlash_copyName use.running.leads 0)
  have site := site_of_live leads sound here
  refine ⟨dir', ⟨site, ⟨use.running.writer.item, site.stored, ?_⟩, ?_⟩, rooted, use.clear, ?_⟩
  · rw [same]
    exact use.running.writer.position
  · rw [same]
    exact use.running.size
  · rw [same]
    exact use.text

end InUse

/-! ## The life of a log file -/

/-- A log file that was opened at some time where there was a file or nothing. Since then lines have
been logged, its buffer has been written out, and others have changed whatever they liked except the
live file. -/
inductive Lives (base : String) (maxFiles : Nat) : Rotating → Disk → Prop where
  | made {d d' : Disk} {maxSize : Nat} {r : Rotating} (sound : d.Sound) (rooted : d.Rooted)
      (plain : Plain (d.item? base)) (made : Rotating.make d base maxSize maxFiles = .ok (r, d')) :
      Lives base maxFiles r d'
  | logged {d d' : Disk} {r r' : Rotating} {line : Bytes} {fault : Option FileError}
      (lives : Lives base maxFiles r d) (logged : r.log d line = (fault, r', d')) :
      Lives base maxFiles r' d'
  | flushed {d d' : Disk} {r r' : Rotating} {fault : Option FileError}
      (lives : Lives base maxFiles r d) (flushed : r.flush d = (fault, r', d')) :
      Lives base maxFiles r' d'
  | changed {d d' : Disk} {r : Rotating} (lives : Lives base maxFiles r d) (sound : d'.Sound)
      (rooted : d'.Rooted) (live : d'.item? base = d.item? base)
      (same : ∀ id, d.item? base = some (.file id) → d'.bytes id = d.bytes id) :
      Lives base maxFiles r d'

/-- A log file that was opened is in use with what was in it. -/
theorem inUse_of_make {maxSize maxFiles : Nat} (sound : d.Sound) (rooted : d.Rooted)
    (plain : Plain (d.item? base)) (clear : ∀ j, 0 < j → j < maxFiles → Clear base j)
    (made : Rotating.make d base maxSize maxFiles = .ok (r, d')) :
    ∃ dir id, InUse r dir id ((held d base 0).getD []) d' ∧ r.base = base ∧
      r.maxFiles = maxFiles := by
  obtain ⟨item, after, opening, same⟩ := make_steps made
  obtain ⟨dir, leads⟩ := exists_leads_of_openOrMake opening
  obtain ⟨id, rfl, opened⟩ := opened_of_openOrMake leads sound plain opening
  cases same
  have site := site_of_live (leads.of_keeps opened.keeps) opened.sound opened.live
  have rooted' : d'.Rooted := by
    obtain ⟨-, p, located, -, ⟨-, rfl⟩ | ⟨free, -, puts, -⟩⟩ := Disk.openOrMake_eq_ok opening
    · exact rooted
    · obtain rfl := eq_copyPlace_of_locate (i := 0) leads located
      exact rooted.of_puts puts (by rw [free]; exact nofun) fun _ _ =>
        Grounds.parent ⟨leads, sound, rooted⟩
  have running : Running base 0 dir id ⟨.file id, none, []⟩ (d'.bytes id).length d' :=
    ⟨site, ⟨rfl, site.stored, nofun⟩, by rw [List.append_nil]⟩
  refine ⟨dir, id, ⟨running, rooted', clear, ?_⟩, rfl, rfl⟩
  rw [List.append_nil, opened.text]

/-- A log file is in use all its life. -/
theorem Lives.exists_inUse {maxFiles : Nat} (lives : Lives base maxFiles r d)
    (copies : 0 < maxFiles) (clear : ∀ j, 0 < j → j < maxFiles → Clear base j) :
    ∃ dir id text, InUse r dir id text d ∧ r.base = base ∧ r.maxFiles = maxFiles := by
  induction lives with
  | made sound rooted plain made =>
    obtain ⟨dir, id, use, same⟩ := inUse_of_make sound rooted plain clear made
    exact ⟨dir, id, _, use, same⟩
  | logged _ logged ih =>
    obtain ⟨dir, id, text, use, rfl, rfl⟩ := ih
    obtain ⟨id', text', after, same⟩ := use.log copies logged
    exact ⟨dir, id', text', after, same⟩
  | flushed _ flushed ih =>
    obtain ⟨dir, id, text, use, rfl, rfl⟩ := ih
    obtain ⟨after, same⟩ := use.flush flushed
    exact ⟨dir, id, text, after, same⟩
  | changed _ sound rooted live same ih =>
    obtain ⟨dir, id, text, use, rfl, rfl⟩ := ih
    obtain ⟨dir', after⟩ := use.of_others sound rooted live (same id use.running.live)
    exact ⟨dir', id, text, after, rfl, rfl⟩

/-! ## Failed rotations -/

/-- A failed rotation destroys nothing. The loop begins once the live file holds the whole text, and
only its first turn can find something where it moves a copy to. A rotation that is barred fails the
line that asked for it: everything else is as it was, and the line is nowhere. Any other rotation
puts the file aside, and the line is alone in a new one. -/
theorem failed_rotation_destroys_nothing (use : InUse r dir id text d) (copies : 0 < r.maxFiles)
    (line : Bytes) (full : 0 < r.size ∧ r.maxSize < r.size + line.length) :
    (∃ w, r.writer.flush d = (none, w, d.setBytes id text)) ∧
    (∀ k before, Turn r.base r.maxFiles (d.setBytes id text) (k + 1) before →
      before.pathExists (copyName r.base (k + 1)) = true →
      k + 1 = r.maxFiles ∧ before = d.setBytes id text) ∧
    (∀ e, Barred d r.base r.maxFiles e →
      ∃ w, r.log d line = (some e, { r with writer := w }, d.setBytes id text) ∧
        w.buffer = [] ∧ (d.setBytes id text).bytes id = text ∧
        InUse { r with writer := w } dir id text (d.setBytes id text)) ∧
    ((∀ e, ¬Barred d r.base r.maxFiles e) →
      ∃ w d', r.rotate d = (none, { r with writer := w, size := 0 }, d') ∧
        PutAside r.base dir r.maxFiles id text d d' ∧
        ∃ w' d'', r.log d line = (none, { r with writer := w', size := line.length }, d'') ∧
          InUse { r with writer := w', size := line.length } dir d.contents.length line d'') := by
  obtain ⟨w, written, -, flushed⟩ := use.exists_flush
  refine ⟨⟨w, written⟩, ?_, ?_, ?_⟩
  · intro k before turn taken
    exact turn.target_free flushed.grounds flushed.clear_all taken
  · intro e barred
    obtain ⟨w, logged, empty, after⟩ := use.exists_log_of_barred barred line full
    exact ⟨w, logged, empty, Disk.bytes_setBytes_self use.running.writer.stored _, after⟩
  · intro free
    exact use.exists_log_of_free copies free line full

/-- A log file with a byte in its buffer. -/
def buffered (base : String) (maxFiles : Nat) (item : Item) : Rotating :=
  ⟨base, 1, maxFiles, ⟨item, none, [4]⟩, 1⟩

/-- A file name alone leads to the working directory. -/
theorem leads_of_name {name : List Char} (noSlash : '/' ∉ name)
    (named : PathText.isVoid name = false) (down : name ≠ ['.', '.']) :
    Leads d (String.ofList name) [] := by
  have alone : (String.ofList name).toList.splitOn '/' = [name] := by
    rw [String.toList_ofList, List.splitOn_eq_singleton noSlash]
  refine ⟨⟨[], name, alone, named, down⟩, ?_, fun q below => ?_⟩
  · have relative : Disk.start (String.ofList name) = [] := by
      rw [Disk.start, String.toList_ofList, if_neg fun root => noSlash (List.mem_of_head? root)]
    have front : PathText.solid (String.ofList name).toList = [name] := by
      rw [PathText.solid, alone, List.filter_cons_of_pos (by rw [named]; rfl), List.filter_nil]
    rw [relative, front]
    rfl
  · rw [List.prefix_nil.mp below]
    rfl

/-- A file with nothing in it and a buffer is a log file in use. -/
theorem inUse_buffered (name : List Char) (noSlash : '/' ∉ name)
    (named : PathText.isVoid name = false) (down : name ≠ ['.', '.']) (sound : d.Sound)
    (rooted : d.Rooted) (live : d.item? (String.ofList name) = some (.file 0))
    (empty : d.bytes 0 = []) (maxFiles : Nat) :
    InUse (buffered (String.ofList name) maxFiles (.file 0)) [] 0 [4] d := by
  have site := site_of_live (leads_of_name noSlash named down) sound live
  refine ⟨⟨site, ⟨rfl, site.stored, nofun⟩, ?_⟩, rooted, fun j _ _ => clear_of_down ?_ j, ?_⟩
  · rw [empty]
    rfl
  · intro up
    rw [PathText.solid, buffered, String.toList_ofList, List.splitOn_eq_singleton noSlash] at up
    exact down (List.mem_singleton.mp (List.mem_of_mem_filter up)).symm
  · rw [empty]
    rfl

/-- A log file with one copy, and a directory with a file where the second copy would go. -/
def crowded : Disk :=
  ⟨[(["x"], .file 0), (["x.1"], .file 1), (["x.2"], .directory), (["x.2", "y"], .file 2)],
    [[], [2], [3]]⟩

/-- The crowded directory has a log file in use. -/
theorem inUse_crowded (maxFiles : Nat) :
    InUse (buffered "x" maxFiles (.file 0)) [] 0 [4] crowded :=
  inUse_buffered ['x'] (by decide) rfl (by decide)
    (Disk.sound_of_ids (by decide) (by decide)) (Disk.rooted_of_items (by decide +kernel)) rfl rfl
    maxFiles

/-- With three copies no directory is in the way. -/
theorem not_barred_crowded (e : FileError) : ¬Barred crowded "x" 3 e := by
  intro barred
  cases barred with
  | directory _ directory =>
    have other : crowded.pathIsDirectory (copyName "x" 3) = false := rfl
    rw [other] at directory
    cases directory
  | @unnamed _ index _ below _ refused =>
    rcases index with _ | _ | _ | index
    · cases refused
    · cases refused
    · cases refused
    · omega

/-- With two copies the directory is in the way. With three it becomes the third one. -/
theorem crowded_rotations :
    (∃ w, (buffered "x" 2 (.file 0)).log crowded [5] =
        (some .isDirectory, ⟨"x", 1, 2, w, 1⟩, crowded.setBytes 0 [4]) ∧ w.buffer = []) ∧
    ∃ w d', (buffered "x" 3 (.file 0)).rotate crowded = (none, ⟨"x", 1, 3, w, 0⟩, d') ∧
      PutAside "x" [] 3 0 [4] crowded d' ∧ Found "x" crowded 2 d' 3 ∧
      ∃ w' d'', (buffered "x" 3 (.file 0)).log crowded [5] =
        (none, ⟨"x", 1, 3, w', 1⟩, d'') := by
  have full (n : Nat) : 0 < (buffered "x" n (.file 0)).size ∧
      (buffered "x" n (.file 0)).maxSize <
        (buffered "x" n (.file 0)).size + [(5 : UInt8)].length :=
    ⟨Nat.zero_lt_one, Nat.one_lt_two⟩
  obtain ⟨-, -, fails, -⟩ :=
    failed_rotation_destroys_nothing (inUse_crowded 2) Nat.zero_lt_two [5] (full 2)
  obtain ⟨-, -, -, moves⟩ :=
    failed_rotation_destroys_nothing (inUse_crowded 3) (Nat.succ_pos 2) [5] (full 3)
  have barred : Barred crowded "x" 2 .isDirectory := .directory rfl rfl
  obtain ⟨w, logged, empty, -⟩ := fails _ barred
  obtain ⟨w', d', rotated, aside, w'', d'', logged', -⟩ := moves not_barred_crowded
  have third : Found "x" crowded 2 d' 3 := aside.lifted 2 (Nat.lt_succ_self 2) rfl
  exact ⟨⟨w, logged, empty⟩, w', d', rotated, aside, third, w'', d'', logged'⟩

/-! A file name that leaves no room for a number. Its characters are dealt with as a list, since the
bytes of a text this long are too many to be computed. -/

/-- As many characters as a file name may have. -/
def longName : List Char :=
  List.replicate 255 'a'

/-- A disk with a file of that name. -/
def longNamed : Disk :=
  ⟨[([String.ofList longName], .file 0)], [[]]⟩

/-- The copies of a file with this name have the whole name and the number behind it. -/
theorem copyFile_longName (i : Nat) :
    copyFile (String.ofList longName) i = longName ++ copyMark i := by
  have stem : PathText.stem (String.ofList longName) = longName := by
    rw [PathText.stem, PathText.fileName?, String.toList_ofList]
    decide +kernel
  have extension : PathText.extension? (String.ofList longName) = none := by
    rw [PathText.extension?, PathText.fileName?, String.toList_ofList]
    decide +kernel
  rw [copyFile, markedFile, stem, extension]
  exact List.append_nil _

/-- The first copy of the file, in the working directory. -/
theorem copyName_longName :
    copyName (String.ofList longName) 1 = String.ofList (longName ++ copyMark 1) := by
  have file : PathText.fileName? (String.ofList longName) = some longName := by
    rw [PathText.fileName?, String.toList_ofList]
    decide +kernel
  have parent : PathText.parent? (String.ofList longName) = some "" := by
    rw [PathText.parent?, String.toList_ofList]
    decide +kernel
  have whole := copyFile_longName 1
  rw [copyFile, markedFile, copyMark, if_neg Nat.one_ne_zero] at whole
  rw [copyName, if_neg Nat.one_ne_zero, marked, PathText.withFileName, file, parent, whole,
    copyMark, if_neg Nat.one_ne_zero]
  rfl

/-- A name of this length with a mark behind it, in bytes. -/
theorem utf8ByteSize_longName {mark : List Char} (single : ∀ c ∈ mark, c.utf8Size = 1) :
    (String.ofList (longName ++ mark)).utf8ByteSize = 255 + mark.length := by
  have all : ∀ c ∈ longName ++ mark, c.utf8Size = 1 := by
    intro c mem
    rcases List.mem_append.mp mem with a | other
    · rw [(List.mem_replicate.mp a).2]
      rfl
    · exact single c other
  rw [utf8ByteSize_of_single all, List.length_append, longName, List.length_replicate]

/-- The name leads into the working directory. -/
theorem leads_longNamed : Leads longNamed (String.ofList longName) [] :=
  leads_of_name (by decide +kernel) rfl (by decide)

/-- The disk takes the name itself. -/
theorem named_longName : Named [] (String.ofList longName) 0 := by
  have file : copyFile (String.ofList longName) 0 = longName :=
    (copyFile_longName 0).trans (List.append_nil _)
  have size : (String.ofList longName).utf8ByteSize = 255 := by
    rw [← List.append_nil longName]
    exact utf8ByteSize_longName nofun
  refine named_iff.mpr ⟨?_, ?_, ?_⟩
  · rw [copyName, if_pos rfl, String.toList_ofList]
    decide +kernel
  · rw [copyName, if_pos rfl, size]
    decide
  · rw [file, size]

/-- The live file is at its place. -/
theorem at?_longNamed :
    longNamed.at? (copyPlace [] (String.ofList longName) 0) = some (.file 0) := by
  have here : copyPlace [] (String.ofList longName) 0 = [String.ofList longName] := by
    rw [copyPlace, copyFile_longName]
    exact congrArg (fun name => [String.ofList name]) (List.append_nil longName)
  have down : [String.ofList longName].all (· = "..") = false := by
    rw [List.all_cons, Bool.and_eq_false_iff, decide_eq_false_iff_not]
    left
    intro same
    have upwards : String.ofList longName = String.ofList ['.', '.'] := same
    have short := congrArg List.length (String.ofList_injective upwards)
    rw [longName, List.length_replicate] at short
    cases short
  rw [here, Disk.at?, down, if_neg Bool.false_ne_true]
  exact List.lookup_cons_self

/-- The disk has a log file in use. -/
theorem inUse_longNamed :
    InUse (buffered (String.ofList longName) 1 (.file 0)) [] 0 [4] longNamed := by
  have live : longNamed.item? (String.ofList longName) = some (.file 0) :=
    (Disk.item?_of_locate ((locate_copyName leads_longNamed 0).trans named_longName)).trans
      at?_longNamed
  have once : longNamed.ids.Nodup := List.nodup_singleton 0
  have rooted : longNamed.Rooted := Disk.rooted_of_items fun entry mem => by
    rw [List.mem_singleton.mp mem]
    rfl
  exact inUse_buffered longName (by decide +kernel) rfl (by decide)
    (Disk.sound_of_ids once (by decide)) rooted live rfl 1

/-- There is no name for the first copy, which bars the rotation. -/
theorem barred_longNamed : Barred longNamed (String.ofList longName) 1 .nameTooLong := by
  have taken : longNamed.at? (copyPlace [] (String.ofList longName) 0) ≠ none := by
    rw [at?_longNamed]
    exact nofun
  have single : ∀ c ∈ copyMark 1, c.utf8Size = 1 := by
    intro c mem
    have mark : copyMark 1 = ['.', '1'] := rfl
    rw [mark] at mem
    rcases List.mem_pair.mp mem with rfl | rfl
    · rfl
    · rfl
  refine .unnamed Nat.zero_lt_one ?_ ?_
  · exact inUse_longNamed.grounds.pathExists_iff.mpr ⟨named_longName, taken⟩
  · rw [locate_copyName leads_longNamed, Disk.inDirectory, copyName_longName, copyFile_longName,
      utf8ByteSize_longName single, String.toList_ofList, if_neg (by decide +kernel)]
    rfl

/-- Rotations fail without a directory in the way: where the file has no room for a number in its
name, where its path leads through a copy, which has moved then, and where it is no regular file. -/
theorem rotations_fail_without_directory :
    (∃ r d, (buffered (String.ofList longName) 1 (.file 0)).log longNamed [5] =
      (some .nameTooLong, r, d)) ∧
    (∃ r, (buffered "x.1/../x" 2 (.file 0)).log
        ⟨[(["x"], .file 0), (["x.1"], .directory)], [[]]⟩ [5] =
      (some .notFound, r, ⟨[(["x"], .file 0), (["x.2"], .directory)], [[4]]⟩)) ∧
    ∃ r, (buffered "/dev/full" 1 .full).log .empty [5] = (some .storageFull, r, .empty) := by
  refine ⟨?_, ⟨_, rfl⟩, _, rfl⟩
  obtain ⟨w, logged, -⟩ := inUse_longNamed.exists_log_of_barred barred_longNamed [5]
    (by decide)
  exact ⟨_, _, logged⟩

end LogTopology.LogFile
