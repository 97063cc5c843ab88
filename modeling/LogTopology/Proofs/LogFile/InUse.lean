import LogTopology.Proofs.LogFile.Rotation
/-!
# A log file in use

What opening a log file, writing to it, writing out its buffer and putting it aside do to its files.
The live file and the buffer, taken together, hold what went in; the copies stay as they are until
the live file is put aside, and the ones with higher numbers than the highest always do.

`Running` is the invariant of a log file: its directory is there, its copies are regular files or
nothing, its writer stands at the end of the live file, and the size that it keeps counts what is in
the file and in the buffer. Opening a log file establishes it (`make_eq`), appending and writing out
keep it and never fail (`Running.append_eq`, `Running.flush_eq`), and a rotation that goes well
keeps it with a new, empty live file (`Running.rotate_eq`).

Each of these laws tells the whole effect, so that uses in a row need no look into the operations. A
rotation may fail, and nothing is said here of one that does.
-/

namespace LogTopology.LogFile

open Text (Bytes)

variable {d d' : Disk} {base : String} {dir : Place} {id maxSize maxFiles n : Nat} {w : Writer}

/-! ## Opening and writing the live file -/

/-- What opening the live file makes of the files of a log. -/
structure Opened (base : String) (before after : Disk) (id : Nat) : Prop where
  keeps : Disk.Keeps before after
  sound : after.Sound
  live : after.item? base = some (.file id)
  text : after.bytes id = (held before base 0).getD []
  others : ∀ j, j ≠ 0 → SameCopy base before after j

/-- A path that can be opened lies in a directory that is there. -/
theorem exists_leads_of_openOrMake {item : Item} (h : d.openOrMake base = .ok (item, d')) :
    ∃ dir, Leads d base dir := by
  obtain ⟨noSlash, p, located, notDirectory, found⟩ := Disk.openOrMake_eq_ok h
  have other : d.at? p ≠ some .directory := by
    rcases found with ⟨here, -⟩ | ⟨here, -⟩
    · rw [here]
      intro same
      exact notDirectory (Option.some.inj same)
    · rw [here]
      exact nofun
  exact leads_of_locate located other noSlash

/-- Opening a path where there is a regular file or nothing makes it the live file. -/
theorem opened_of_openOrMake (leads : Leads d base dir) (sound : d.Sound)
    (plain : Plain (d.item? base)) {item : Item} (h : d.openOrMake base = .ok (item, d')) :
    ∃ id, item = .file id ∧ Opened base d d' id := by
  -- Either the live file is there, or there is none and an empty one is made.
  obtain ⟨-, p, located, -, ⟨here, rfl⟩ | ⟨here, rfl, puts, contents⟩⟩ := Disk.openOrMake_eq_ok h
  · rw [Disk.item?_of_locate located, here] at plain
    rcases plain with absent | ⟨id, file⟩
    · cases absent
    · cases file
      have live : d'.item? base = some (.file id) := by
        rw [Disk.item?_of_locate located, here]
      refine ⟨id, rfl, fun _ way => way, sound, live, ?_, fun j _ => .refl base d' j⟩
      rw [held_of_file (i := 0) leads live]
      rfl
  · obtain rfl := eq_copyPlace_of_locate (i := 0) leads located
    have keeps := puts.keeps (by rw [here]; exact nofun)
    have leads' := leads.of_keeps keeps
    have absent : d.item? base = none := by
      rw [Disk.item?_of_locate located, here]
    refine ⟨_, rfl, keeps, sound.of_puts_new puts contents, ?_, ?_, ?_⟩
    · have located' : d'.locate base = .ok (copyPlace dir base 0) := by
        rw [← located]
        exact (locate_copyName leads' 0).trans (locate_copyName leads 0).symm
      rw [Disk.item?_of_locate located', puts, if_pos rfl]
    · rw [held_of_none (i := 0) leads absent]
      unfold Disk.bytes
      rw [contents, List.getElem?_concat_length]
      rfl
    · intro j notLive
      apply sameCopy_of_place leads leads'
      · rw [puts, if_neg]
        intro same
        exact notLive (copyPlace_injective same)
      · intro other file
        unfold Disk.bytes
        rw [contents, List.getElem?_append_left (sound.stored _ other file)]

/-- Writing to the live file leaves all copies as they are. -/
theorem sameCopy_setBytes (leads : Leads d base dir) (sound : d.Sound)
    (live : d.item? base = some (.file id)) (bs : Bytes) (j : Nat) (notLive : j ≠ 0) :
    SameCopy base d (d.setBytes id bs) j := by
  have keeps : Disk.Keeps d (d.setBytes id bs) := fun _ way => way
  apply sameCopy_of_place leads (leads.of_keeps keeps) rfl
  intro other file
  apply Disk.bytes_setBytes_of_ne
  rintro rfl
  obtain ⟨p, located, here⟩ := Disk.exists_place_of_item? live
  obtain rfl := eq_copyPlace_of_locate (i := 0) leads located
  exact notLive (copyPlace_injective (sound.apart _ _ _ file here))

/-! ## A log file in use -/

/-- The files of a log: the live file is there, and all copies are regular files. -/
structure Site (base : String) (maxFiles : Nat) (dir : Place) (id : Nat) (d : Disk) : Prop where
  leads : Leads d base dir
  sound : d.Sound
  plain : ∀ j, j ≤ maxFiles → Plain (d.item? (copyName base j))
  live : d.item? base = some (.file id)

/-- A log file in use: it writes to the end of the live file, and it knows how much is in there and
in the buffer. -/
structure Running (base : String) (maxFiles : Nat) (dir : Place) (id : Nat) (w : Writer) (n : Nat)
    (d : Disk) : Prop extends Site base maxFiles dir id d where
  writer : w.AtEnd d id
  size : n = (d.bytes id ++ w.buffer).length

/-- Where no copy counts, the live file is all there has to be. -/
theorem site_of_live (leads : Leads d base dir) (sound : d.Sound)
    (live : d.item? base = some (.file id)) : Site base 0 dir id d := by
  refine ⟨leads, sound, fun j low => ?_, live⟩
  rw [Nat.le_zero.mp low]
  exact .inr ⟨id, live⟩

/-- The live file has contents. -/
theorem Site.stored (site : Site base maxFiles dir id d) : id < d.contents.length :=
  Disk.stored_of_item? site.sound site.live

/-- Writing to the live file leaves the files of the log where they are. -/
theorem Site.setBytes (site : Site base maxFiles dir id d) (bs : Bytes) :
    Site base maxFiles dir id (d.setBytes id bs) := by
  have leads' : Leads (d.setBytes id bs) base dir := site.leads.of_keeps fun _ way => way
  have items : ∀ j, (d.setBytes id bs).item? (copyName base j) = d.item? (copyName base j) :=
    fun j => item?_congr site.leads leads' rfl
  refine ⟨leads', site.sound.setBytes id bs, ?_, (items 0).trans site.live⟩
  intro j bound
  rw [items j]
  exact site.plain j bound

/-- A log file stays in use when its writer writes to the end of the live file. -/
theorem Site.write (site : Site base maxFiles dir id d) {text : Bytes}
    (atEnd : w.AtEnd (d.setBytes id text) id) :
    Running base maxFiles dir id w (text ++ w.buffer).length (d.setBytes id text) := by
  refine ⟨site.setBytes text, atEnd, ?_⟩
  rw [Disk.bytes_setBytes_self site.stored]

/-- The copies above a number, and those below it other than the live file, are as before. -/
theorem Opened.site (opened : Opened base d d' id) (leads : Leads d base dir)
    (plain : ∀ j, j ≤ maxFiles → Plain (d.item? (copyName base j))) :
    Site base maxFiles dir id d' := by
  refine ⟨leads.of_keeps opened.keeps, opened.sound, ?_, opened.live⟩
  intro j bound
  by_cases live : j = 0
  · rw [live]
    exact .inr ⟨id, opened.live⟩
  · rw [(opened.others j live).item]
    exact plain j bound

/-- What an operation on a log file in use does: the log stays in use, the live file and the buffer
hold this, and the copies are as they were. -/
structure Writes (base : String) (maxFiles : Nat) (dir : Place) (id : Nat) (d : Disk) (w : Writer)
    (n : Nat) (d' : Disk) (whole : Bytes) : Prop where
  running : Running base maxFiles dir id w n d'
  whole : d'.bytes id ++ w.buffer = whole
  others : ∀ j, j ≠ 0 → SameCopy base d d' j

/-- Appending a line never fails, and the line is in the file or in the buffer. -/
theorem Running.append_eq (running : Running base maxFiles dir id w n d) (maxSize : Nat)
    (line : Bytes) :
    ∃ w' n' d', Rotating.append ⟨base, maxSize, maxFiles, w, n⟩ d line =
        (none, ⟨base, maxSize, maxFiles, w', n'⟩, d') ∧
      Writes base maxFiles dir id d w' n' d' (d.bytes id ++ w.buffer ++ line) := by
  obtain ⟨w', text, hwrite, whole, -, atEnd⟩ := Writer.write_eq running.writer line
  have size : n + line.length = (text ++ w'.buffer).length := by
    rw [whole, List.length_append, running.size]
  unfold Rotating.append
  dsimp only
  rw [hwrite]
  refine ⟨w', n + line.length, _, rfl, ?_, ?_, ?_⟩
  · rw [size]
    exact running.toSite.write atEnd
  · rw [Disk.bytes_setBytes_self running.writer.stored, whole]
  · exact sameCopy_setBytes running.leads running.sound running.live text

/-- Writing out the buffer never fails, and leaves nothing in it. -/
theorem Running.flush_eq (running : Running base maxFiles dir id w n d) :
    ∃ w' d', w.flush d = (none, w', d') ∧ w'.buffer = [] ∧
      Writes base maxFiles dir id d w' n d' (d.bytes id ++ w.buffer) := by
  obtain ⟨w', hflush, empty, atEnd⟩ := Writer.flush_eq running.writer
  refine ⟨w', _, hflush, empty, ?_, ?_, ?_⟩
  · have size : n = (d.bytes id ++ w.buffer ++ w'.buffer).length := by
      rw [empty, List.append_nil, running.size]
    rw [size]
    exact running.toSite.write atEnd
  · rw [Disk.bytes_setBytes_self running.writer.stored, empty, List.append_nil]
  · exact sameCopy_setBytes running.leads running.sound running.live _

/-- The files behind the live one, once they have moved, end the files that there were. -/
theorem Rotated.aside_suffix (rotated : Rotated base maxFiles d d') (leads : Leads d base dir)
    (live : d.item? base = some (.file id)) :
    aside d' base maxFiles <:+ aside d base maxFiles ++ [d.bytes id] := by
  by_cases only : maxFiles = 0
  · rw [only]
    exact List.nil_suffix
  · have gone : held d' base 0 = none :=
      held_of_none (leads.of_keeps rotated.keeps) (rotated.emptied (by omega))
    have suffix := rotated.suffix
    unfold archive at suffix
    rw [gone, held_of_file (i := 0) leads live] at suffix
    simpa using suffix

/-- Putting the file aside makes its contents the newest copy, and drops at most the oldest ones.
The new live file is empty. -/
theorem Running.rotate_eq (running : Running base maxFiles dir id w n d) {r : Rotating}
    (h : Rotating.rotate ⟨base, maxSize, maxFiles, w, n⟩ d = (none, r, d')) :
    ∃ id' w', r = ⟨base, maxSize, maxFiles, w', 0⟩ ∧ Running base maxFiles dir id' w' 0 d' ∧
      aside d' base maxFiles <:+ aside d base maxFiles ++ [d.bytes id ++ w.buffer] ∧
      ∀ j, maxFiles < j → SameCopy base d d' j := by
  -- The buffer is written out, the copies move up, and a fresh live file is opened and emptied.
  obtain ⟨w₁, d₁, hflush, empty, flushed⟩ := running.flush_eq
  unfold Rotating.rotate at h
  dsimp only at h
  rw [hflush] at h
  dsimp only at h
  split at h
  · cases h
  · rename_i d₂ hshift
    have rotated := rotated_of_shiftBelow flushed.running.leads flushed.running.plain hshift
    have leads₂ := flushed.running.leads.of_keeps rotated.keeps
    split at h
    · cases h
    · rename_i w' after hfresh
      cases h
      obtain ⟨⟨item, d₃⟩, hopen, done⟩ := Setup.bind_eq_ok.mp hfresh
      obtain ⟨id', rfl, opened⟩ := opened_of_openOrMake leads₂
        (rotated.sound flushed.running.sound) (rotated.plain 0 (Nat.zero_le _)) hopen
      cases done
      have site := opened.site leads₂ rotated.plain
      have restarted : Writer.AtEnd ⟨.file id', some 0, []⟩ (d₃.setBytes id' []) id' := by
        refine ⟨rfl, ?_, ?_⟩
        · rw [Disk.length_contents_setBytes]
          exact site.stored
        · intro position start
          cases start
          rw [Disk.bytes_setBytes_self site.stored]
          rfl
      have emptied : ∀ j, j ≠ 0 → SameCopy base d₂ (d₃.setBytes id' []) j := fun j notLive =>
        (opened.others j notLive).trans
          (sameCopy_setBytes site.leads site.sound site.live [] j notLive)
      have whole : d₁.bytes id = d.bytes id ++ w.buffer := by
        rw [← flushed.whole, empty, List.append_nil]
      refine ⟨id', _, rfl, site.write restarted, ?_, ?_⟩
      · -- The first and the last of these touch the live file only, so the copies are as they were
        -- moved.
        have moved := rotated.aside_suffix flushed.running.leads flushed.running.live
        rw [whole, aside_congr fun j pos _ => (flushed.others j (by omega)).held] at moved
        have kept : aside (d₃.setBytes id' []) base maxFiles = aside d₂ base maxFiles :=
          aside_congr fun j pos _ => (emptied j (by omega)).held
        change aside (d₃.setBytes id' []) base maxFiles <:+ _
        rw [kept]
        exact moved
      · intro j above
        have notLive : j ≠ 0 := by omega
        exact ((flushed.others j notLive).trans (rotated.above j above)).trans (emptied j notLive)

/-! ## Making a log file -/

/-- Making a log file opens its path to append to it. -/
theorem make_steps {s : Rotating × Disk} (h : Rotating.make d base maxSize maxFiles = .ok s) :
    ∃ item d', d.openOrMake base = .ok (item, d') ∧
      s = (⟨base, maxSize, maxFiles, ⟨item, none, []⟩,
        match item with
        | .file id => (d'.bytes id).length
        | _ => 0⟩, d') := by
  unfold Rotating.make at h
  split at h
  · cases h
  · obtain ⟨⟨w, d'⟩, hopen, h⟩ := Setup.bind_eq_ok.mp h
    cases h
    unfold openLog at hopen
    rw [if_neg Bool.false_ne_true] at hopen
    cases happend : Writer.append d base with
    | error e =>
      rw [happend] at hopen
      cases hopen
    | ok opened =>
      rw [happend] at hopen
      cases hopen
      obtain ⟨⟨item, d₁⟩, hmake, h⟩ := Setup.bind_eq_ok.mp happend
      cases h
      exact ⟨item, d', hmake, rfl⟩

/-- Opening a log file finds it as it was left, whether it is new or not. -/
theorem make_eq (sound : d.Sound) (plain : ∀ j, j ≤ maxFiles → Plain (d.item? (copyName base j)))
    {s : Rotating × Disk} (h : Rotating.make d base maxSize maxFiles = .ok s) :
    ∃ dir id w n d', s = (⟨base, maxSize, maxFiles, w, n⟩, d') ∧
      Writes base maxFiles dir id d w n d' ((held d base 0).getD []) := by
  obtain ⟨item, d', hopen, rfl⟩ := make_steps h
  obtain ⟨dir, leads⟩ := exists_leads_of_openOrMake hopen
  obtain ⟨id, rfl, opened⟩ := opened_of_openOrMake leads sound (plain 0 (Nat.zero_le _)) hopen
  have site := opened.site leads plain
  refine ⟨dir, id, _, _, d', rfl, ⟨site, ⟨rfl, site.stored, nofun⟩, ?_⟩, ?_, opened.others⟩
  · rw [List.append_nil]
  · rw [List.append_nil, opened.text]

end LogTopology.LogFile
