import LogTopology.Proofs.LogFile.InUse
/-!
# What a log file of bounded size keeps

A log file that is written to, put aside and opened again keeps what it is given: its archive is the
one that it started from, then the lines in order, without some of its oldest files. A line is never
split between two files, and a file that the log started is within its bound unless one line alone
is too long for it.

`Spread` says how lines lie in files. The lines fall into groups: the first one went behind what the
live file held at the start, each other one into a file of its own, and what is left of these files
is an end of their list. Appending a line adds it to the last group (`Spread.append`) and rotating
begins a new one (`Spread.renew`). `Kept` adds that no copy above the highest number was touched.
One use keeps this (`Kept.log`, `Kept.reopen`), and so any number of uses does (`Kept.uses`);
`uses_keep_lines` reads the result off the disk, after a last flush.

All uses are supposed to go well; what a failing rotation leaves has a module of its own, as it
loses a line. No line is empty: behind an empty one a line that is too long would not be alone in
its file.
-/

namespace LogTopology.LogFile

open Text (Bytes)

variable {d d' : Disk} {base : String} {dir : Place} {id maxSize maxFiles n : Nat} {w : Writer}

/-! ## Lines in files -/

/-- The lines that went into one new file: within the bound, or one line alone. -/
def Bounded (maxSize : Nat) (lines : List Bytes) : Prop :=
  lines ≠ [] ∧ (lines.flatten.length ≤ maxSize ∨ lines.length = 1)

/-- Lines are spread over files: the first ones went behind what the live file held before, and each
further group of them into a new file. The files are what is left, without the oldest ones. -/
def Spread (maxSize : Nat) (before : List Bytes) (live : Bytes) (lines files : List Bytes) : Prop :=
  ∃ (first : List Bytes) (rest : List (List Bytes)), lines = first ++ rest.flatten ∧
    files <:+ before ++ (live ++ first.flatten) :: rest.map List.flatten ∧
    (∀ group ∈ rest, Bounded maxSize group) ∧ (live = [] → first = [] ∨ Bounded maxSize first)

variable {before files lines : List Bytes} {live text line : Bytes}

/-- Before anything is logged the files are those that were there. -/
theorem spread_start (maxSize : Nat) (before : List Bytes) (live : Bytes) :
    Spread maxSize before live [] (before ++ [live]) := by
  refine ⟨[], [], rfl, ?_, nofun, fun _ => .inl rfl⟩
  rw [List.flatten_nil, List.append_nil]
  exact List.suffix_refl _

/-- A further group of lines makes a further file. -/
theorem map_flatten_concat (before : List Bytes) (text : Bytes) (groups : List (List Bytes))
    (group : List Bytes) :
    before ++ text :: (groups ++ [group]).map List.flatten =
      before ++ text :: groups.map List.flatten ++ [group.flatten] := by
  rw [List.map_append, List.append_assoc]
  rfl

/-- Two lists of which one ends the other have the same last element, and what is before it does
too. -/
theorem concat_suffix_concat {α : Type} {l₁ l₂ : List α} {a b : α} (h : l₁ ++ [a] <:+ l₂ ++ [b]) :
    a = b ∧ l₁ <:+ l₂ := by
  obtain ⟨front, h⟩ := h
  rw [← List.append_assoc] at h
  obtain ⟨rest, last⟩ := List.append_inj' h rfl
  cases last
  exact ⟨rfl, front, rest⟩

/-- Lines of which none is empty take up no room only if there are none. -/
theorem eq_nil_of_flatten (some : ∀ l ∈ lines, l ≠ []) (h : lines.flatten.length = 0) :
    lines = [] := by
  cases lines with
  | nil => rfl
  | cons l rest =>
    have empty := List.eq_nil_of_length_eq_zero h
    rw [List.flatten_cons, List.append_eq_nil_iff] at empty
    exact absurd empty.1 (some l List.mem_cons_self)

/-- A line that goes behind others stays within the bound, or is alone. -/
theorem bounded_concat (some : ∀ l ∈ lines, l ≠ [])
    (room : lines.flatten.length = 0 ∨ lines.flatten.length + line.length ≤ maxSize) :
    Bounded maxSize (lines ++ [line]) := by
  refine ⟨List.append_ne_nil_of_right_ne_nil _ (List.cons_ne_nil _ _), ?_⟩
  rcases room with empty | room
  · rw [eq_nil_of_flatten some empty]
    exact .inr rfl
  · left
    rw [List.flatten_append, List.length_append, List.flatten_singleton]
    exact room

/-- A line is added to the newest file. -/
theorem Spread.append (spread : Spread maxSize before live lines (files ++ [text]))
    (some : ∀ l ∈ lines, l ≠ [])
    (room : text.length = 0 ∨ text.length + line.length ≤ maxSize) :
    Spread maxSize before live (lines ++ [line]) (files ++ [text ++ line]) := by
  obtain ⟨first, rest, rfl, suffix, bounded, boundedFirst⟩ := spread
  -- Without a rotation the line joins those of the live file that was found, else the last group.
  rcases List.eq_nil_or_concat' rest with rfl | ⟨groups, group, rfl⟩
  · obtain ⟨rfl, kept⟩ := concat_suffix_concat suffix
    have someFirst : ∀ l ∈ first, l ≠ [] := fun l mem => some l (List.mem_append_left _ mem)
    refine ⟨first ++ [line], [], ?_, ?_, nofun, ?_⟩
    · simp
    · obtain ⟨oldest, rfl⟩ := kept
      refine ⟨oldest, ?_⟩
      simp
    · rintro rfl
      rw [List.nil_append] at room
      exact .inr (bounded_concat someFirst room)
  · rw [map_flatten_concat] at suffix
    obtain ⟨rfl, kept⟩ := concat_suffix_concat suffix
    have someGroup : ∀ l ∈ group, l ≠ [] := fun l mem => some l (by simp [mem])
    refine ⟨first, groups ++ [group ++ [line]], ?_, ?_, ?_, boundedFirst⟩
    · simp
    · obtain ⟨oldest, hfiles⟩ := kept
      refine ⟨oldest, ?_⟩
      rw [map_flatten_concat, ← hfiles]
      simp
    · intro other mem
      rcases List.mem_append.mp mem with old | new
      · exact bounded other (List.mem_append_left _ old)
      · rw [List.mem_singleton.mp new]
        exact bounded_concat someGroup room

/-- A line starts a new file, and some of the oldest files go. -/
theorem Spread.renew (spread : Spread maxSize before live lines files) {left : List Bytes}
    (kept : left <:+ files) (line : Bytes) :
    Spread maxSize before live (lines ++ [line]) (left ++ [line]) := by
  obtain ⟨first, rest, rfl, suffix, bounded, boundedFirst⟩ := spread
  refine ⟨first, rest ++ [[line]], ?_, ?_, ?_, boundedFirst⟩
  · simp
  · obtain ⟨oldest, hfiles⟩ := kept.trans suffix
    refine ⟨oldest, ?_⟩
    rw [map_flatten_concat, ← hfiles]
    simp
  · intro group mem
    rcases List.mem_append.mp mem with old | new
    · exact bounded group old
    · rw [List.mem_singleton.mp new]
      exact ⟨List.cons_ne_nil _ _, .inr rfl⟩

/-- Taken together, the files are the end of what was there before and of the lines. -/
theorem Spread.flatten (spread : Spread maxSize before live lines files) :
    files.flatten <:+ before.flatten ++ live ++ lines.flatten := by
  obtain ⟨first, rest, rfl, ⟨oldest, hfiles⟩, -, -⟩ := spread
  refine ⟨oldest.flatten, ?_⟩
  rw [← List.flatten_append, hfiles]
  simp [List.flatten_flatten]

/-! ## A log file over many uses -/

/-- What is done with a log file: a line is logged, or the file is closed and opened again. -/
inductive Use where
  | log (line : Bytes)
  | reopen

/-- The lines that are logged. -/
def logged : List Use → List Bytes
  | [] => []
  | .log line :: uses => line :: logged uses
  | .reopen :: uses => logged uses

/-- A use that goes well. Closing writes out the buffer, and opening goes by the same bounds. -/
def use? (s : Rotating × Disk) : Use → Option (Rotating × Disk)
  | .log line =>
    match s.1.log s.2 line with
    | (none, r, d) => some (r, d)
    | (some _, _, _) => none
  | .reopen =>
    (Rotating.make (s.1.flush s.2).2.2 s.1.base s.1.maxSize s.1.maxFiles).toOption

/-- Uses that all go well, one after the other. -/
def uses? (s : Rotating × Disk) (uses : List Use) : Option (Rotating × Disk) :=
  uses.foldlM use? s

/-- What a log file in use makes of the files that it started from: the lines are spread over them,
and no copy above the highest number is touched. -/
structure Kept (start : Disk) (base : String) (maxSize maxFiles : Nat) (lines : List Bytes)
    (dir : Place) (id : Nat) (w : Writer) (n : Nat) (d : Disk) : Prop where
  running : Running base maxFiles dir id w n d
  spread : Spread maxSize (aside start base maxFiles) ((held start base 0).getD []) lines
    (aside d base maxFiles ++ [d.bytes id ++ w.buffer])
  above : ∀ j, maxFiles < j → SameCopy base start d j

variable {start : Disk}

/-- A line that is logged goes behind the others, into the live file or a new one. -/
theorem Kept.log (kept : Kept start base maxSize maxFiles lines dir id w n d)
    (some : ∀ l ∈ lines, l ≠ []) {r : Rotating}
    (h : Rotating.log ⟨base, maxSize, maxFiles, w, n⟩ d line = (none, r, d')) :
    ∃ id' w' n', r = ⟨base, maxSize, maxFiles, w', n'⟩ ∧
      Kept start base maxSize maxFiles (lines ++ [line]) dir id' w' n' d' := by
  unfold Rotating.log at h
  dsimp only at h
  have size := kept.running.size
  -- A line that does not fit comes first into the file that the rotation leaves empty.
  split at h
  · split at h
    · cases h
    · rename_i r₁ d₁ hrotate
      obtain ⟨id', w₁, rfl, running, moved, above⟩ := kept.running.rotate_eq hrotate
      obtain ⟨w', n', d₂, happend, wrote⟩ := running.append_eq maxSize line
      rw [happend] at h
      cases h
      have empty : d₁.bytes id' ++ w₁.buffer = [] :=
        List.eq_nil_of_length_eq_zero running.size.symm
      refine ⟨id', w', n', rfl, wrote.running, ?_, ?_⟩
      · have others : aside d' base maxFiles = aside d₁ base maxFiles :=
          aside_congr fun j pos _ => (wrote.others j (by omega)).held
        rw [wrote.whole, others, empty, List.nil_append]
        exact kept.spread.renew moved line
      · intro j bound
        exact ((kept.above j bound).trans (above j bound)).trans (wrote.others j (by omega))
  · rename_i fits
    obtain ⟨w', n', d₂, happend, wrote⟩ := kept.running.append_eq maxSize line
    rw [happend] at h
    cases h
    refine ⟨id, w', n', rfl, wrote.running, ?_, ?_⟩
    · have others : aside d' base maxFiles = aside d base maxFiles :=
        aside_congr fun j pos _ => (wrote.others j (by omega)).held
      rw [wrote.whole, others]
      apply kept.spread.append some
      rw [← size]
      simp only [Bool.and_eq_true, decide_eq_true_eq] at fits
      omega
    · intro j bound
      exact (kept.above j bound).trans (wrote.others j (by omega))

/-- Closing the file and opening it again moves no line. -/
theorem Kept.reopen (kept : Kept start base maxSize maxFiles lines dir id w n d)
    {s : Rotating × Disk}
    (h : Rotating.make (Rotating.flush ⟨base, maxSize, maxFiles, w, n⟩ d).2.2 base maxSize maxFiles =
      .ok s) :
    ∃ dir id w n d', s = (⟨base, maxSize, maxFiles, w, n⟩, d') ∧
      Kept start base maxSize maxFiles lines dir id w n d' := by
  obtain ⟨w₁, d₁, hflush, empty, flushed⟩ := kept.running.flush_eq
  have disk : (Rotating.flush ⟨base, maxSize, maxFiles, w, n⟩ d).2.2 = d₁ := by
    unfold Rotating.flush
    dsimp only
    rw [hflush]
  rw [disk] at h
  obtain ⟨dir', id', w', n', d', rfl, opened⟩ :=
    make_eq flushed.running.sound flushed.running.plain h
  refine ⟨dir', id', w', n', d', rfl, opened.running, ?_, ?_⟩
  · have others : aside d' base maxFiles = aside d base maxFiles := aside_congr fun j pos _ =>
      ((flushed.others j (by omega)).trans (opened.others j (by omega))).held
    have live : (held d₁ base 0).getD [] = d.bytes id ++ w.buffer := by
      rw [held_of_file (i := 0) flushed.running.leads flushed.running.live, ← flushed.whole, empty,
        List.append_nil]
      rfl
    rw [opened.whole, others, live]
    exact kept.spread
  · intro j bound
    have notLive : j ≠ 0 := by omega
    exact ((kept.above j bound).trans (flushed.others j notLive)).trans (opened.others j notLive)

/-- Whatever is done with a log file as long as it goes well, the lines are kept. -/
theorem Kept.uses {uses : List Use} (kept : Kept start base maxSize maxFiles lines dir id w n d)
    (some : ∀ l ∈ lines ++ logged uses, l ≠ []) {s : Rotating × Disk}
    (h : uses? (⟨base, maxSize, maxFiles, w, n⟩, d) uses = Option.some s) :
    ∃ dir id w n d', s = (⟨base, maxSize, maxFiles, w, n⟩, d') ∧
      Kept start base maxSize maxFiles (lines ++ logged uses) dir id w n d' := by
  induction uses generalizing lines dir id w n d with
  | nil =>
    cases h
    refine ⟨dir, id, w, n, d, rfl, ?_⟩
    rw [logged, List.append_nil]
    exact kept
  | cons use uses ih =>
    obtain ⟨next, hnext, h⟩ := Option.bind_eq_some_iff.mp h
    cases use with
    | log line =>
      have regroup : lines ++ logged (.log line :: uses) = lines ++ [line] ++ logged uses := by
        rw [logged, List.append_assoc, List.singleton_append]
      rw [regroup] at some ⊢
      unfold use? at hnext
      dsimp only at hnext
      split at hnext
      · rename_i r d' hlog
        cases hnext
        have before : ∀ l ∈ lines, l ≠ [] := fun l mem => some l (by simp [mem])
        obtain ⟨id', w', n', rfl, kept'⟩ := kept.log before hlog
        exact ih kept' some h
      · cases hnext
    | reopen =>
      unfold use? at hnext
      dsimp only at hnext
      cases hmake : Rotating.make (Rotating.flush ⟨base, maxSize, maxFiles, w, n⟩ d).2.2 base
          maxSize maxFiles with
      | error e =>
        rw [hmake] at hnext
        cases hnext
      | ok reopened =>
        rw [hmake] at hnext
        cases hnext
        obtain ⟨dir', id', w', n', d', rfl, kept'⟩ := kept.reopen hmake
        exact ih kept' some h

/-- The text of all copies up to a number and of the live file behind them. -/
def transcript (d : Disk) (base : String) : Nat → Bytes
  | 0 => (held d base 0).getD []
  | index + 1 => (held d base (index + 1)).getD [] ++ transcript d base index

/-- A file that is not there and an empty one add the same text. -/
theorem flatten_toList (text : Option Bytes) : text.toList.flatten = text.getD [] := by
  cases text with
  | none => rfl
  | some text => exact List.append_nil text

/-- The transcript is what the copies hold and then what the live file holds. -/
theorem transcript_eq (d : Disk) (base : String) (last : Nat) :
    transcript d base last = (aside d base last).flatten ++ (held d base 0).getD [] := by
  induction last with
  | zero => rfl
  | succ last ih =>
    unfold transcript aside
    rw [ih, List.flatten_append, flatten_toList, List.append_assoc]

/-- A log file that is used as long as all goes well keeps the lines, and so does writing out the
buffer in the end. What the copies and the live file hold is the end of what they held before and
of the lines; every line is in one file, and every new file is within the bound or holds one line;
the size is known at any time; and copies with higher numbers are not touched. -/
theorem uses_keep_lines (sound : d.Sound)
    (plain : ∀ j, j ≤ maxFiles → Plain (d.item? (copyName base j))) {s : Rotating × Disk}
    (made : Rotating.make d base maxSize maxFiles = .ok s) {uses : List Use} {r r' : Rotating}
    {d₁ d₂ : Disk} (used : uses? s uses = some (r, d₁)) (some : ∀ l ∈ logged uses, l ≠ [])
    {fault : Option FileError} (flushed : r.flush d₁ = (fault, r', d₂)) :
    fault = none ∧
      transcript d₂ base maxFiles <:+ transcript d base maxFiles ++ (logged uses).flatten ∧
      Spread maxSize (aside d base maxFiles) ((held d base 0).getD []) (logged uses)
        (archive d₂ base maxFiles) ∧
      (∃ live, held d₁ base 0 = Option.some live ∧
        r.size = live.length + r.writer.buffer.length) ∧
      (∃ live, held d₂ base 0 = Option.some live ∧ r'.size = live.length) ∧
      ∀ j, maxFiles < j → SameCopy base d d₁ j ∧ SameCopy base d d₂ j := by
  obtain ⟨dir, id, w, n, d', rfl, opened⟩ := make_eq sound plain made
  -- Before the first use no line has come, and the files are as they were found.
  have start : Kept d base maxSize maxFiles [] dir id w n d' := by
    refine ⟨opened.running, ?_, fun j above => opened.others j (by omega)⟩
    rw [opened.whole, aside_congr fun j pos _ => (opened.others j (by omega)).held]
    exact spread_start maxSize _ _
  obtain ⟨dir', id', w', n', d'', same, kept⟩ := start.uses some used
  cases same
  rw [List.nil_append] at kept
  obtain ⟨w₂, d₃, hflush, empty, wrote⟩ := kept.running.flush_eq
  unfold Rotating.flush at flushed
  dsimp only at flushed
  rw [hflush] at flushed
  cases flushed
  have live₁ := held_of_file (i := 0) kept.running.leads kept.running.live
  have live₂ := held_of_file (i := 0) wrote.running.leads wrote.running.live
  have files : archive d₃ base maxFiles = aside d₁ base maxFiles ++ [d₁.bytes id' ++ w'.buffer] := by
    have whole := wrote.whole
    rw [empty, List.append_nil] at whole
    unfold archive
    rw [aside_congr fun j pos _ => (wrote.others j (by omega)).held, live₂, whole]
    rfl
  have spread := kept.spread
  rw [← files] at spread
  refine ⟨rfl, ?_, spread, ⟨_, live₁, ?_⟩, ⟨_, live₂, ?_⟩, ?_⟩
  · have suffix := spread.flatten
    unfold archive at suffix
    rw [List.flatten_append, flatten_toList, ← transcript_eq, ← transcript_eq] at suffix
    exact suffix
  · rw [← List.length_append]
    exact kept.running.size
  · have size := wrote.running.size
    rw [empty, List.append_nil] at size
    exact size
  · intro j above
    exact ⟨kept.above j above, (kept.above j above).trans (wrote.others j (by omega))⟩

/-- A log file with something in it and one copy. -/
def twoFiles : Disk :=
  ⟨[(["a"], .file 0), (["a.1"], .file 1)], [[1, 2], [3]]⟩

/-- What three lines leave of a log file with one copy: one line is too long for the bound, and the
file is opened again after the first one. -/
theorem two_files_keep_lines :
    ∃ r d₁ r' d₂,
      uses? (⟨"a", 3, 1, ⟨.file 0, none, []⟩, 2⟩, twoFiles)
        [.log [5, 5], .reopen, .log [6, 6, 6, 6], .log [7]] = some (r, d₁) ∧
      r.flush d₁ = (none, r', d₂) ∧
      archive d₂ "a" 1 = [[6, 6, 6, 6], [7]] ∧
      transcript d₂ "a" 1 <:+ [3, 1, 2] ++ [5, 5, 6, 6, 6, 6, 7] ∧
      Spread 3 [[3]] [1, 2] [[5, 5], [6, 6, 6, 6], [7]] (archive d₂ "a" 1) := by
  have sound : twoFiles.Sound := Disk.sound_of_ids (by decide) (by decide)
  have plain : ∀ j, j ≤ 1 → Plain (twoFiles.item? (copyName "a" j)) := by
    intro j bound
    rcases Nat.le_one_iff_eq_zero_or_eq_one.mp bound with rfl | rfl
    · exact .inr ⟨0, rfl⟩
    · exact .inr ⟨1, rfl⟩
  have made : Rotating.make twoFiles "a" 3 1 =
      .ok (⟨"a", 3, 1, ⟨.file 0, none, []⟩, 2⟩, twoFiles) := rfl
  have used : uses? (⟨"a", 3, 1, ⟨.file 0, none, []⟩, 2⟩, twoFiles)
      [.log [5, 5], .reopen, .log [6, 6, 6, 6], .log [7]] =
      some (⟨"a", 3, 1, ⟨.file 4, some 0, [7]⟩, 1⟩,
        ⟨[(["a.1"], .file 3), (["a"], .file 4)],
          [[1, 2], [3], [5, 5], [6, 6, 6, 6], []]⟩) := rfl
  have flushed : Rotating.flush ⟨"a", 3, 1, ⟨.file 4, some 0, [7]⟩, 1⟩
      ⟨[(["a.1"], .file 3), (["a"], .file 4)], [[1, 2], [3], [5, 5], [6, 6, 6, 6], []]⟩ =
      (none, ⟨"a", 3, 1, ⟨.file 4, some 1, []⟩, 1⟩,
        ⟨[(["a.1"], .file 3), (["a"], .file 4)],
          [[1, 2], [3], [5, 5], [6, 6, 6, 6], [7]]⟩) := rfl
  obtain ⟨-, suffix, spread, -⟩ := uses_keep_lines sound plain made used (by decide) flushed
  exact ⟨_, _, _, _, used, flushed, rfl, suffix, spread⟩

end LogTopology.LogFile
