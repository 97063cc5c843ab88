import LogTopology.Proofs.LogFile.Shifting
/-!
# What bars a rotation

Directories may stand where the copies of a log file go, and a copy may be due for a name that is
too long for the disk. The two reasons (`Barred`) are met before anything has moved
(`shiftBelow_of_barred`). When neither is the case all copies move, and only something else than a
directory at the place of the highest number may go (`exists_lifted`).

The path of the file must not lead through a copy that would move; a path that never leads upwards
leads through none (`clear_of_down`).

`exists_lifted` goes by the last copy. If it is there it moves first, to a free place or over
something that is no directory, and leaves its own place to the next one; if it is missing, the loop
passes down to the first copy whose place above is free. What others might do to the copies while
the loop is under way is not considered.
-/

namespace LogTopology.LogFile

open Text (Bytes)
open Rotating

variable {d d' : Disk} {base : String} {dir : Place} {n id : Nat}

/-! ## What bars a rotation -/

/-- Why the copies with numbers below `n` cannot all move up by one. -/
inductive Barred (d : Disk) (base : String) : Nat → FileError → Prop where
  /-- The last copy would replace a directory. -/
  | directory {last : Nat} (present : d.pathExists (copyName base last) = true)
      (directory : d.pathIsDirectory (copyName base (last + 1)) = true) :
      Barred d base (last + 1) .isDirectory
  /-- The disk does not take the next name of a copy. -/
  | unnamed {n index : Nat} {e : FileError} (below : index < n)
      (present : d.pathExists (copyName base index) = true)
      (refused : d.locate (copyName base (index + 1)) = .error e) : Barred d base n e

/-- What bars a rotation does not depend on what files hold. -/
theorem barred_setBytes_iff {bs : Bytes} {e : FileError} :
    Barred (d.setBytes id bs) base n e ↔ Barred d base n e := by
  constructor
  · intro barred
    cases barred with
    | directory present directory =>
      rw [Disk.pathExists_setBytes] at present
      rw [Disk.pathIsDirectory_setBytes] at directory
      exact .directory present directory
    | unnamed below present refused =>
      rw [Disk.pathExists_setBytes] at present
      rw [Disk.locate_setBytes] at refused
      exact .unnamed below present refused
  · intro barred
    cases barred with
    | directory present directory =>
      rw [← Disk.pathExists_setBytes] at present
      rw [← Disk.pathIsDirectory_setBytes] at directory
      exact .directory present directory
    | unnamed below present refused =>
      rw [← Disk.pathExists_setBytes] at present
      rw [← Disk.locate_setBytes] at refused
      exact .unnamed below present refused

/-- Turns that find no copy leave the others to the loop. -/
theorem shiftBelow_of_gone {k : Nat} (low : k ≤ n)
    (gone : ∀ j, k ≤ j → j < n → d.pathExists (copyName base j) = false) :
    shiftBelow base n d = shiftBelow base k d := by
  induction n with
  | zero => rw [Nat.le_zero.mp low]
  | succ n ih =>
    by_cases top : k = n + 1
    · rw [top]
    · rw [shiftBelow, shift_of_gone (gone n (by omega) (Nat.lt_succ_self n))]
      exact ih (by omega) fun j low high => gone j low (by omega)

/-- What bars the copies is met before any of them has moved. -/
theorem shiftBelow_of_barred {e : FileError} (grounds : Grounds base dir d)
    (live : Named dir base 0) (barred : Barred d base n e) :
    shiftBelow base n d = (some e, d) := by
  cases barred with
  | directory present directory =>
    rw [shiftBelow, shift_of_directory present directory (endsWithSlash_copyName grounds.leads _)]
  | @unnamed _ index _ below present refused =>
    have nameless : ¬Named dir base (index + 1) := by
      intro named
      rw [grounds.locate_eq named] at refused
      cases refused
    -- There is no copy above, since none of the longer names is taken either.
    have gone (j : Nat) (low : index + 1 ≤ j) (_ : j < n) :
        d.pathExists (copyName base j) = false :=
      grounds.not_pathExists_iff.mpr fun there => nameless (named_of_le live there.1 _ low)
    rw [shiftBelow_of_gone below gone, shiftBelow, shift_of_unnamed grounds present refused]

/-- Where nothing bars a rotation, each copy that is there has a next name. -/
theorem named_of_free (grounds : Grounds base dir d) (free : ∀ e, ¬Barred d base n e) {j : Nat}
    (below : j < n) (present : d.pathExists (copyName base j) = true) : Named dir base (j + 1) := by
  rcases inDirectory_copy dir base (j + 1) with named | ⟨e, nameless⟩
  · exact named
  · rw [← locate_copyName grounds.leads] at nameless
    exact absurd (.unnamed below present nameless) (free e)

/-- Copies that nothing bars move up. From some number on there is no copy that could have moved,
and a last place that nothing moves to is among those. -/
theorem exists_lifted (grounds : Grounds base dir d) (live : Named dir base 0) (some : 0 < n)
    (clear : ∀ j, j < n → Clear base j) (free : ∀ e, ¬Barred d base n e) :
    ∃ k d', shiftBelow base n d = (none, d') ∧ Lifted dir base k d d' ∧ k ≤ n ∧
      (k = n → d.pathExists (copyName base (n - 1)) = true) ∧
      ∀ j, k ≤ j → j < n → d.pathExists (copyName base j) = false := by
  obtain ⟨last, rfl⟩ := Nat.exists_eq_succ_of_ne_zero (Nat.ne_of_gt some)
  have clear' (j : Nat) (below : j < last) := clear j (by omega)
  -- A last copy that is missing leaves room for the others; one that is there moves up first.
  cases present : d.pathExists (copyName base last) with
  | false =>
    obtain ⟨k, d', low, loop, lifted, gone⟩ := lifted_of_gone grounds clear' live
      (fun j below => named_of_free grounds free (by omega)) present
    refine ⟨k, d', ?_, lifted, by omega, by omega, fun j low high => gone j low (by omega)⟩
    rw [shiftBelow, shift_of_gone present]
    exact loop
  | true =>
    have namedTop := named_of_free grounds free (Nat.lt_succ_self last) present
    have other : d.at? (copyPlace dir base (last + 1)) ≠ .some .directory := by
      intro directory
      refine free _ (.directory present ?_)
      rw [Disk.pathIsDirectory, grounds.locate_eq namedTop]
      exact decide_eq_true directory
    obtain ⟨room, shifted, moves, contents, grounds'⟩ := exists_moves grounds
      (clear last (Nat.lt_succ_self last)) present namedTop other
    have freed : room.at? (copyPlace dir base last) = none := by
      rw [← List.append_nil (copyPlace dir base last), moves.source]
    obtain ⟨d', loop, lifted⟩ := lifted_of_free grounds' clear'
      (fun j low => named_of_le live namedTop j (by omega)) freed
    refine ⟨last + 1, d', ?_, lifted.succ_of_moves moves contents, Nat.le_refl _, fun _ => present,
      ?_⟩
    · rw [shiftBelow, shifted]
      exact loop
    · intro j low high
      omega

/-! ## A new live file -/

/-- Starting a file where there is none fills its place with an empty file. -/
theorem exists_fresh {path : String} {p : Place} (located : d.locate path = .ok p)
    (free : d.at? p = none) (noSlash : Disk.endsWithSlash path = false) :
    ∃ d', Writer.fresh d path = .ok (⟨.file d.contents.length, some 0, []⟩, d') ∧
      Disk.Puts d d' p (some (.file d.contents.length)) ∧
      d'.contents = d.contents ++ [[]] := by
  obtain ⟨made, opened⟩ : ∃ made, d.openOrMake path = .ok (.file d.contents.length, made) := by
    simp only [Disk.openOrMake, located, bind, Except.bind, free, noSlash]
    exact ⟨_, rfl⟩
  obtain ⟨-, p', located', -, ⟨here, -⟩ | ⟨-, -, puts, contents⟩⟩ := Disk.openOrMake_eq_ok opened
  · cases located.symm.trans located'
    cases free.symm.trans here
  · cases located.symm.trans located'
    have empty : made.bytes d.contents.length = [] := by
      rw [Disk.bytes, contents, List.getElem?_concat_length]
      rfl
    have stored : d.contents.length < made.contents.length := by
      rw [contents, List.length_append]
      exact Nat.lt_succ_self _
    have emptied : made.truncate (.file d.contents.length) = made := by
      rw [Disk.truncate, ← empty, Disk.setBytes_bytes stored]
    refine ⟨made, ?_, puts, contents⟩
    rw [Writer.fresh, opened]
    change Except.ok (_, made.truncate _) = _
    rw [emptied]

end LogTopology.LogFile
