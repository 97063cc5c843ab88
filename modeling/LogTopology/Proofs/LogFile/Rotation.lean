import LogTopology.Proofs.LogFile.Copies
/-!
# What putting a log file aside does to its copies

The files of a log, from the copy with the highest number down to the live file, are its archive.
Moving the copies drops at most the oldest file of the archive, and that one only when the place
below it is taken too: `rotated_of_shiftBelow`. Numbers without a copy are filled on the way.

The induction is on the number up to which the copies move. The first move is the only one that
finds something at its target: it leaves its own place free, which is the target of the next one. If
there was a gap, nothing is dropped at all, and the archive is the same list of contents, since an
archive does not show its gaps (`archive_eq_of_gap`).

The moves are supposed to go well, and the copies to be regular files.
-/

namespace LogTopology.LogFile

open Text (Bytes)
open Rotating

/-! ## The archive of a log file -/

/-- The contents of a copy, if there is one. -/
def held (d : Disk) (base : String) (index : Nat) : Option Bytes :=
  (d.readFile (copyName base index)).toOption

/-- The contents of the copies up to a number, the highest first. -/
def aside (d : Disk) (base : String) : Nat → List Bytes
  | 0 => []
  | index + 1 => (held d base (index + 1)).toList ++ aside d base index

/-- The contents of the copies and of the live file behind them. -/
def archive (d : Disk) (base : String) (last : Nat) : List Bytes :=
  aside d base last ++ (held d base 0).toList

/-- Nothing or a regular file. -/
def Plain (item : Option Item) : Prop :=
  item = none ∨ ∃ id, item = some (.file id)

variable {d d' : Disk} {base : String} {dir : Place} {i m : Nat}

/-- What a copy holds is what can be read at its name. -/
theorem held_eq (leads : Leads d base dir) (i : Nat) :
    held d base i = (d.contentsOf (d.item? (copyName base i))).toOption := by
  unfold held
  rw [Disk.readFile_eq (endsWithSlash_copyName leads i)]
  cases located : d.locate (copyName base i) with
  | error e =>
    rw [Disk.item?_of_error located]
    rfl
  | ok p =>
    rw [Disk.item?_of_locate located]
    rfl

/-- Where there is no copy, nothing is held. -/
theorem held_of_none (leads : Leads d base dir) (h : d.item? (copyName base i) = none) :
    held d base i = none := by
  rw [held_eq leads, h]
  rfl

/-- Where there is a file, its bytes are held. -/
theorem held_of_file (leads : Leads d base dir) {id : Nat}
    (h : d.item? (copyName base i) = some (.file id)) : held d base i = some (d.bytes id) := by
  rw [held_eq leads, h]
  rfl

/-- A copy that stays as it is holds what it held. -/
theorem SameCopy.held (same : SameCopy base d d' i) : held d' base i = held d base i :=
  congrArg Except.toOption same.text

/-- What was put aside depends on what the copies hold, and on nothing else. -/
theorem aside_congr (h : ∀ j, 0 < j → j ≤ m → held d' base j = held d base j) :
    aside d' base m = aside d base m := by
  induction m with
  | zero => rfl
  | succ m ih =>
    unfold aside
    rw [h (m + 1) (by omega) (Nat.le_refl _), ih fun j pos below => h j pos (by omega)]

/-- The archive with one more number has the copy with this number in front. -/
theorem archive_succ : archive d base (m + 1) = (held d base (m + 1)).toList ++ archive d base m :=
  List.append_assoc _ _ _

/-- A file taken out of the archive stood before the rest of it. -/
theorem archive_eq_of_gap (gap : held d' base m = none)
    (below : ∀ j, j < m → held d' base j = held d base j) :
    archive d base m = (held d base m).toList ++ archive d' base m := by
  cases m with
  | zero =>
    unfold archive aside
    rw [gap]
    simp
  | succ m =>
    rw [archive_succ, archive_succ, gap]
    unfold archive
    rw [below 0 (by omega), aside_congr fun j _ bound => below j (by omega)]
    rfl

/-! ## Moving all copies -/

/-- Moving a copy leaves all of them regular files, or nothing. -/
theorem Shifted.plain (shifted : Shifted base i d d')
    (plain : ∀ j, j ≤ i + 1 → Plain (d.item? (copyName base j))) :
    ∀ j, j ≤ i + 1 → Plain (d'.item? (copyName base j)) := by
  intro j bound
  by_cases source : j = i
  · rw [source, shifted.emptied]
    exact .inl rfl
  by_cases target : j = i + 1
  · rw [target, shifted.filled]
    rcases plain i (by omega) with absent | ⟨id, file⟩
    · rw [absent, Option.none_or]
      exact plain (i + 1) (Nat.le_refl _)
    · rw [file]
      exact .inr ⟨id, rfl⟩
  · rw [(shifted.others j source target).item]
    exact plain j bound

/-- The next copy holds what has moved there, or what it held if there was nothing to move. -/
theorem Shifted.held_target (shifted : Shifted base i d d') (leads : Leads d base dir)
    (plain : ∀ j, j ≤ i + 1 → Plain (d.item? (copyName base j))) :
    held d' base (i + 1) = (held d base i).or (held d base (i + 1)) := by
  have leads' := leads.of_keeps shifted.keeps
  have bytes : ∀ id, d'.bytes id = d.bytes id := by
    intro id
    unfold Disk.bytes
    rw [shifted.contents]
  have filled := shifted.filled
  rcases plain i (by omega) with absent | ⟨id, file⟩
  · rw [absent, Option.none_or] at filled
    rw [held_of_none leads absent, Option.none_or]
    rcases plain (i + 1) (Nat.le_refl _) with absent' | ⟨id, file⟩
    · rw [held_of_none leads absent', held_of_none leads' (filled.trans absent')]
    · rw [held_of_file leads file, held_of_file leads' (filled.trans file), bytes]
  · rw [file] at filled
    rw [held_of_file leads file, held_of_file leads' filled, bytes]
    rfl

/-- What moving the copies with numbers below a given one makes of all of them. -/
structure Rotated (base : String) (last : Nat) (before after : Disk) : Prop where
  contents : after.contents = before.contents
  keeps : Disk.Keeps before after
  sound : before.Sound → after.Sound
  plain : ∀ j, j ≤ last → Plain (after.item? (copyName base j))
  emptied : 0 < last → after.item? (copyName base 0) = none
  above : ∀ j, last < j → SameCopy base before after j
  gap : held before base last = none → archive after base last = archive before base last
  suffix : archive after base last <:+ archive before base last

/-- Moving the copies one after the other, the highest number first. Only the first move can drop a
file: the target of each later one has been left by the move before. -/
theorem rotated_of_shiftBelow (leads : Leads d base dir)
    (plain : ∀ j, j ≤ m → Plain (d.item? (copyName base j)))
    (h : shiftBelow base m d = (none, d')) : Rotated base m d d' := by
  induction m generalizing d with
  | zero =>
    cases h
    exact ⟨rfl, fun _ way => way, id, plain, fun pos => absurd pos (Nat.lt_irrefl 0),
      fun j _ => .refl base _ j, fun _ => rfl, List.suffix_refl _⟩
  | succ m ih =>
    unfold shiftBelow at h
    split at h
    · cases h
    · rename_i d₁ hshift
      have noDirectory : d.item? (copyName base m) ≠ some .directory := by
        rcases plain m (by omega) with absent | ⟨id, file⟩
        · rw [absent]
          exact nofun
        · rw [file]
          exact nofun
      -- The highest copy moves first; what the induction tells begins on the disk that this leaves.
      have shifted := shifted_of_shift leads noDirectory hshift
      have leads₁ := leads.of_keeps shifted.keeps
      have plain₁ := shifted.plain plain
      have rest := ih leads₁ (fun j bound => plain₁ j (by omega)) h
      have gap₁ : held d₁ base m = none := held_of_none leads₁ shifted.emptied
      have below : ∀ j, j < m → held d₁ base j = held d base j :=
        fun j bound => (shifted.others j (by omega) (by omega)).held
      have top : held d' base (m + 1) = (held d base m).or (held d base (m + 1)) := by
        rw [(rest.above (m + 1) (by omega)).held]
        exact shifted.held_target leads plain
      have after : archive d' base (m + 1) =
          ((held d base m).or (held d base (m + 1))).toList ++ archive d₁ base m := by
        rw [archive_succ, top, rest.gap gap₁]
      have before : archive d base (m + 1) =
          (held d base (m + 1)).toList ++ ((held d base m).toList ++ archive d₁ base m) := by
        rw [archive_succ, archive_eq_of_gap gap₁ below]
      refine ⟨rest.contents.trans shifted.contents, shifted.keeps.trans rest.keeps,
        fun sound => rest.sound (shifted.sound sound), ?_, ?_, ?_, ?_, ?_⟩
      · intro j bound
        by_cases last : j = m + 1
        · rw [last, (rest.above (m + 1) (by omega)).item]
          exact plain₁ (m + 1) (Nat.le_refl _)
        · exact rest.plain j (by omega)
      · intro _
        by_cases only : m = 0
        · subst only
          cases h
          exact shifted.emptied
        · exact rest.emptied (by omega)
      · intro j above
        exact (shifted.others j (by omega) (by omega)).trans (rest.above j (by omega))
      · intro none
        rw [after, before, none, Option.or_none]
        rfl
      · rw [after, before]
        cases held d base m with
        | none =>
          rw [Option.none_or]
          exact List.suffix_refl _
        | some text => exact List.suffix_append _ _

end LogTopology.LogFile
