import LogTopology.LogFile.Rotating
import LogTopology.Proofs.Disk.Paths
import LogTopology.Proofs.LogFile.Name
/-!
# The copies of a log file

What the live file and its copies hold, and how one copy moves to the next number. All of them are
files next to one another, so an operation on one leaves every other one as it is.

A copy has a place in the directory of the log (`copyPlace`), another one for each number, and none
inside of another. `SameCopy` says that a copy is on one disk as it is on another one: it is the
same item, with the same bytes. Moving a copy first makes room at the next number and then renames,
and `shifted_of_shift` says what comes of it: the next number holds what has moved, the number
itself is free, and all other copies are the same. Where there is no copy nothing is done, and the
next number keeps what it has.

Copies are files or nothing here. Directories among them are told with the moves of whole trees.
-/

namespace LogTopology

open Text (Bytes)

namespace LogFile

open Rotating

variable {d d' : Disk} {base : String} {dir : Place} {i j : Nat}

/-! ## Places of copies -/

/-- The place of a copy. -/
def copyPlace (dir : Place) (base : String) (index : Nat) : Place :=
  dir ++ [String.ofList (copyFile base index)]

/-- Copies with different numbers have different places. -/
theorem copyPlace_injective (h : copyPlace dir base i = copyPlace dir base j) : i = j := by
  have last := (List.append_inj' h rfl).2
  injection last with name
  exact copyFile_injective (String.ofList_injective name)

/-- No copy is inside of another one. -/
theorem not_below (h : i ≠ j) : ¬copyPlace dir base i <+: copyPlace dir base j := by
  intro below
  have same : copyPlace dir base i = copyPlace dir base j := by
    apply below.eq_of_length
    unfold copyPlace
    rw [List.length_append, List.length_append]
    rfl
  exact h (copyPlace_injective same)

/-- Whether a copy can be named does not depend on the disk. -/
theorem inDirectory_copy (dir : Place) (base : String) (index : Nat) :
    Disk.inDirectory dir (copyName base index) (copyFile base index) =
        .ok (copyPlace dir base index) ∨
      ∃ e, Disk.inDirectory dir (copyName base index) (copyFile base index) = .error e := by
  unfold Disk.inDirectory
  split
  · exact .inr ⟨_, rfl⟩
  · split
    · exact .inr ⟨_, rfl⟩
    · split
      · exact .inr ⟨_, rfl⟩
      · exact .inl rfl

/-- The name of a copy leads to its place. -/
theorem eq_copyPlace_of_locate {p : Place} (leads : Leads d base dir)
    (h : d.locate (copyName base i) = .ok p) : p = copyPlace dir base i := by
  rw [locate_copyName leads] at h
  rcases inDirectory_copy dir base i with named | ⟨e, unnamed⟩
  · rw [named] at h
    cases h
    rfl
  · rw [unnamed] at h
    cases h

/-! ## Copies that stay as they are -/

/-- A copy is on one disk as it is on another. -/
structure SameCopy (base : String) (before after : Disk) (index : Nat) : Prop where
  item : after.item? (copyName base index) = before.item? (copyName base index)
  text : after.readFile (copyName base index) = before.readFile (copyName base index)

theorem SameCopy.refl (base : String) (d : Disk) (index : Nat) : SameCopy base d d index :=
  ⟨rfl, rfl⟩

theorem SameCopy.trans {d₁ d₂ d₃ : Disk} (first : SameCopy base d₁ d₂ i)
    (second : SameCopy base d₂ d₃ i) : SameCopy base d₁ d₃ i :=
  ⟨second.item.trans first.item, second.text.trans first.text⟩

/-- A copy is what is at its place, if it can be named. -/
theorem item?_congr (leads : Leads d base dir) (leads' : Leads d' base dir)
    (here : d'.at? (copyPlace dir base i) = d.at? (copyPlace dir base i)) :
    d'.item? (copyName base i) = d.item? (copyName base i) := by
  have before := locate_copyName leads i
  have after := locate_copyName leads' i
  rcases inDirectory_copy dir base i with named | ⟨e, unnamed⟩
  · rw [named] at before after
    rw [Disk.item?_of_locate before, Disk.item?_of_locate after, here]
  · rw [unnamed] at before after
    rw [Disk.item?_of_error before, Disk.item?_of_error after]

/-- A copy stays as it is when its place has the same item and its file the same bytes. -/
theorem sameCopy_of_place (leads : Leads d base dir) (leads' : Leads d' base dir)
    (here : d'.at? (copyPlace dir base i) = d.at? (copyPlace dir base i))
    (bytes : ∀ id, d.at? (copyPlace dir base i) = some (.file id) → d'.bytes id = d.bytes id) :
    SameCopy base d d' i := by
  refine ⟨item?_congr leads leads' here, ?_⟩
  have texts : d'.contentsOf (d.at? (copyPlace dir base i)) =
      d.contentsOf (d.at? (copyPlace dir base i)) := by
    cases h : d.at? (copyPlace dir base i) with
    | none => rfl
    | some item =>
      cases item with
      | file id => exact congrArg Except.ok (bytes id h)
      | directory | nothing | full => rfl
  rw [Disk.readFile_eq (endsWithSlash_copyName leads i),
    Disk.readFile_eq (endsWithSlash_copyName leads' i), locate_copyName leads,
    locate_copyName leads']
  rcases inDirectory_copy dir base i with named | ⟨e, unnamed⟩
  · rw [named]
    change d'.contentsOf (d'.at? (copyPlace dir base i)) = _
    rw [here, texts]
    rfl
  · rw [unnamed]
    rfl

/-! ## Moving a copy -/

/-- What moving one copy to the next number makes of all of them. -/
structure Shifted (base : String) (index : Nat) (before after : Disk) : Prop where
  contents : after.contents = before.contents
  keeps : Disk.Keeps before after
  sound : before.Sound → after.Sound
  filled : after.item? (copyName base (index + 1)) =
    (before.item? (copyName base index)).or (before.item? (copyName base (index + 1)))
  emptied : after.item? (copyName base index) = none
  others : ∀ j, j ≠ index → j ≠ index + 1 → SameCopy base before after j

/-- Making room for a copy that can be named empties its place and no other. -/
theorem puts_none_of_room (leads : Leads d base dir) {room : Disk} {t : Place}
    (h : (if d.pathExists (copyName base i) then d.removeFile (copyName base i) else .ok d) =
      .ok room) (atTarget : room.locate (copyName base i) = .ok t) :
    t = copyPlace dir base i ∧ Disk.Puts d room t none ∧ room.contents = d.contents ∧
      Disk.Keeps d room := by
  rw [Disk.pathExists_eq (endsWithSlash_copyName leads i)] at h
  split at h
  · obtain ⟨p, located, file, puts, contents⟩ := Disk.removeFile_eq_ok h
    have keeps := puts.keeps file
    rw [eq_copyPlace_of_locate leads located] at puts
    have ht := eq_copyPlace_of_locate (leads.of_keeps keeps) atTarget
    rw [ht]
    exact ⟨rfl, puts, contents, keeps⟩
  · rename_i absent
    cases h
    refine ⟨eq_copyPlace_of_locate leads atTarget, ?_, rfl, fun _ way => way⟩
    intro q
    split
    · rename_i same
      rw [same, ← Disk.item?_of_locate atTarget]
      exact Option.not_isSome_iff_eq_none.mp absent
    · rfl

/-- Where there is no copy, nothing moves. -/
theorem shift_of_absent (leads : Leads d base dir)
    (absent : d.item? (copyName base i) = none) : shift base i d = (none, d) := by
  unfold shift
  dsimp only
  rw [Disk.pathExists_eq (endsWithSlash_copyName leads i), absent]
  rfl

/-- Moving a copy makes room at the next number and then renames. -/
theorem shift_steps (leads : Leads d base dir) (present : d.item? (copyName base i) ≠ none)
    (h : shift base i d = (none, d')) :
    ∃ room, (if d.pathExists (copyName base (i + 1)) then d.removeFile (copyName base (i + 1))
        else .ok d) = .ok room ∧ room.rename (copyName base i) (copyName base (i + 1)) = .ok d' := by
  unfold shift at h
  dsimp only at h
  rw [Disk.pathExists_eq (endsWithSlash_copyName leads i),
    if_pos (Option.isSome_iff_ne_none.mpr present)] at h
  split at h
  · cases h
  · rename_i room hroom
    split at h
    · cases h
    · rename_i after hrename
      cases h
      exact ⟨room, hroom, hrename⟩

/-- A copy that moves takes the next number, and no other copy changes. -/
theorem shifted_of_shift (leads : Leads d base dir)
    (file : d.item? (copyName base i) ≠ some .directory)
    (h : shift base i d = (none, d')) : Shifted base i d d' := by
  by_cases absent : d.item? (copyName base i) = none
  · rw [shift_of_absent leads absent] at h
    cases h
    refine ⟨rfl, fun _ way => way, id, ?_, absent, fun j _ _ => .refl base d j⟩
    rw [absent, Option.none_or]
  -- What stands at the target is removed, and then the source gets its name.
  obtain ⟨room, hroom, hrename⟩ := shift_steps leads absent h
  obtain ⟨s, t, item, atSource, atTarget, here, hd'⟩ := Disk.rename_eq_ok hrename
  obtain ⟨rfl, puts, contents, keepsRoom⟩ := puts_none_of_room leads hroom atTarget
  have leadsRoom := leads.of_keeps keepsRoom
  obtain rfl := eq_copyPlace_of_locate leadsRoom atSource
  have located : d.locate (copyName base i) = .ok (copyPlace dir base i) := by
    rw [locate_copyName leads, ← locate_copyName leadsRoom, atSource]
  have distinct : i ≠ i + 1 := by omega
  have sourceRoom : room.at? (copyPlace dir base i) = d.at? (copyPlace dir base i) := by
    rw [puts, if_neg]
    intro same
    exact distinct (copyPlace_injective same)
  have emptyRoom : room.at? (copyPlace dir base (i + 1)) = none := by
    rw [puts, if_pos rfl]
  have fileRoom : room.at? (copyPlace dir base i) ≠ some .directory := by
    rw [sourceRoom, ← Disk.item?_of_locate located]
    exact file
  have moves := Disk.moves_of_items fileRoom emptyRoom (not_below distinct.symm)
    (congrArg Disk.items hd')
  have keeps := keepsRoom.trans (moves.keeps fileRoom emptyRoom)
  have leads' := leads.of_keeps keeps
  have target' : d'.locate (copyName base (i + 1)) = .ok (copyPlace dir base (i + 1)) := by
    rw [locate_copyName leads', ← locate_copyName leadsRoom, atTarget]
  have source' : d'.locate (copyName base i) = .ok (copyPlace dir base i) := by
    rw [locate_copyName leads', ← locate_copyName leadsRoom, atSource]
  have contents' : d'.contents = d.contents := by
    rw [hd', ← contents]
  refine ⟨contents', keeps, ?_, ?_, ?_, ?_⟩
  · intro sound
    exact (sound.of_puts_none puts contents).of_rename fileRoom hd'
  · rw [Disk.item?_of_locate target', moves.target, sourceRoom, Disk.item?_of_locate located]
    rw [Disk.item?_of_locate located] at absent
    exact (Option.or_of_isSome (Option.isSome_iff_ne_none.mpr absent)).symm
  · rw [Disk.item?_of_locate source', moves.source]
  · intro j notSource notTarget
    apply sameCopy_of_place leads leads'
    · rw [moves.outside _ (not_below notSource.symm) (not_below notTarget.symm), puts, if_neg]
      intro same
      exact notTarget (copyPlace_injective same)
    · intro id _
      unfold Disk.bytes
      rw [contents']

end LogFile

end LogTopology
