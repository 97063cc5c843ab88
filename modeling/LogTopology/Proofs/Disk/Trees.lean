import LogTopology.Proofs.Disk.Items
/-!
# Directories with all that is in them

Whatever is somewhere on a disk is in a directory (`Rooted`), so there is nothing below a file or
below a place where there is nothing. That makes moving a directory as harmless as moving a file:
everything in it comes along, nothing else moves, and nothing is merged with what was at the new
place (`MovesTree`).

A move may break a path that leads through what has moved. The places that a path goes through are
decided by its names alone (`along`), so whether a path is in danger can be told beforehand.

`movesTree_of_items` reads the move of a tree off the items of the disk, as `moves_of_items` does
for a file; here the places below have to be followed too, so the target must be free with all that
would be below it, and neither end may lie below the other. Where there is nothing at a place there
is nothing below it, on a disk that is `Rooted`, so the first of these comes down to one place.
-/

namespace LogTopology.Disk

/-- Whatever is somewhere is in a directory. -/
def Rooted (d : Disk) : Prop :=
  ∀ p name, d.at? (p ++ [name]) ≠ none → d.at? p = some .directory

/-- A place is, with all that is below it, what another place was. -/
def SameTree (before : Disk) (p : Place) (after : Disk) (q : Place) : Prop :=
  ∀ rest, after.at? (q ++ rest) = before.at? (p ++ rest)

/-- A place with all that is below it has moved, and nothing else has. -/
structure MovesTree (before after : Disk) (s t : Place) : Prop where
  target : SameTree before s after t
  source : ∀ rest, after.at? (s ++ rest) = none
  outside : ∀ q, ¬s <+: q → ¬t <+: q → after.at? q = before.at? q

/-- The places that names lead through from a place, the last one included. -/
def along : Place → List String → List Place
  | p, [] => [p]
  | p, name :: names => p :: along (if isVoidName name then p else into p name) names

variable {d d' : Disk} {p q s t : Place} {name : String} {names : List String} {item : Item}

/-! ## What is below a place -/

namespace Rooted

/-- There is nothing below anything but a directory. -/
theorem nothing_below (rooted : d.Rooted) (other : d.at? p ≠ some .directory) {rest : Place}
    (below : rest ≠ []) : d.at? (p ++ rest) = none := by
  induction rest using List.reverseRecOn with
  | nil => exact absurd rfl below
  | append_singleton rest name ih =>
    by_contra present
    rw [← List.append_assoc] at present
    have directory := rooted _ name present
    by_cases here : rest = []
    · rw [here, List.append_nil] at directory
      exact other directory
    · rw [ih here] at directory
      cases directory

/-- Where there is nothing, there is nothing below either. -/
theorem nothing_of_none (rooted : d.Rooted) (none : d.at? p = none) (rest : Place) :
    d.at? (p ++ rest) = .none := by
  by_cases here : rest = []
  · rw [here, List.append_nil, none]
  · exact rooted.nothing_below (by rw [none]; exact nofun) here

/-- Something else than a directory may be put into a directory or taken out of one. -/
theorem of_puts (rooted : d.Rooted) {new : Option Item} (puts : Puts d d' p new)
    (old : d.at? p ≠ some .directory)
    (parent : ∀ q name, p = q ++ [name] → d.at? q = some .directory) : d'.Rooted := by
  intro q name present
  have directory : d.at? q = some .directory := by
    by_cases here : q ++ [name] = p
    · exact parent q name here.symm
    · rw [puts, if_neg here] at present
      exact rooted q name present
  rw [puts, if_neg, directory]
  rintro rfl
  exact old directory

end Rooted

/-- A disk is in order if what each entry of it is in is a directory. -/
theorem rooted_of_items (parents : ∀ entry ∈ d.items, d.at? entry.1.dropLast = some .directory) :
    d.Rooted := by
  intro p name present
  by_cases up : (p ++ [name]).all (· = "..")
  · rw [List.all_append, Bool.and_eq_true] at up
    rw [at?, if_pos up.1]
  · rw [at?, if_neg up] at present
    obtain ⟨item, found⟩ := Option.ne_none_iff_exists'.mp present
    have parent := parents _ (mem_of_lookup found)
    rwa [List.dropLast_concat] at parent

/-! ## Moving -/

/-- Renaming moves a place with all that is below it to a free place. -/
theorem movesTree_of_items (downSource : s.all (· = "..") = false)
    (free : ∀ rest, d.at? (t ++ rest) = none) (notAbove : ¬t <+: s) (notBelow : ¬s <+: t)
    (h : d'.items = d.items.map fun e => (moved s t e.1, e.2)) : MovesTree d d' s t := by
  have downTarget : t.all (· = "..") = false := by
    refine not_up (d := d) ?_
    rw [← List.append_nil t, free]
    exact nofun
  have down {p : Place} (h : p.all (· = "..") = false) (rest : Place) :
      (p ++ rest).all (· = "..") = false := by
    rw [List.all_append, h, Bool.false_and]
  have emptyTarget : ∀ e ∈ d.items, ¬t <+: e.1 := by
    rintro e mem ⟨rest, same⟩
    have none := List.lookup_eq_none_iff.mp (lookup_of_at?_eq_none (free rest)) e mem
    rw [same, bne_self_eq_false] at none
    cases none
  refine ⟨fun rest => ?_, fun rest => ?_, fun q => at?_of_moved_outside h⟩
  · rw [at?_of_not_up (down downTarget rest), at?_of_not_up (down downSource rest), h]
    refine lookup_map_place fun e mem => ?_
    by_cases inside : s <+: e.1
    · obtain ⟨tail, same⟩ := inside
      rw [moved_inside ⟨tail, same⟩, ← same, List.drop_left, List.append_cancel_left_eq,
        List.append_cancel_left_eq]
    · rw [moved_outside inside]
      refine iff_of_false (fun same => emptyTarget e mem ⟨rest, same.symm⟩) fun same => ?_
      exact inside ⟨rest, same.symm⟩
  · rw [at?_of_not_up (down downSource rest), h, List.lookup_eq_none_iff]
    intro e' mem
    obtain ⟨e, -, rfl⟩ := List.mem_map.mp mem
    refine bne_iff_ne.mpr fun same => ?_
    by_cases inside : s <+: e.1
    · rw [moved_inside inside] at same
      -- The target would lie below the source, or the source below the target.
      have first : t <+: s ++ rest := ⟨_, same.symm⟩
      rcases List.prefix_or_prefix_of_prefix first (List.prefix_append s rest) with above | below
      · exact notAbove above
      · exact notBelow below
    · rw [moved_outside inside] at same
      exact inside ⟨rest, same⟩

namespace MovesTree

/-- Clearing the target first makes no difference to what has moved. -/
theorem of_room {room : Disk} (puts : Puts d room t none) (notBelow : ¬s <+: t)
    (moves : MovesTree room d' s t) : MovesTree d d' s t := by
  have kept (q : Place) (other : q ≠ t) : room.at? q = d.at? q := by
    rw [puts, if_neg other]
  refine ⟨fun rest => ?_, moves.source, fun q hs ht => ?_⟩
  · rw [moves.target rest]
    exact kept _ fun same => notBelow ⟨rest, same⟩
  · rw [moves.outside q hs ht]
    apply kept
    rintro rfl
    exact ht (List.prefix_refl _)

/-- Moving a directory leaves every file with contents of its own. -/
theorem sound (moves : MovesTree d d' s t) (contents : d'.contents = d.contents) (sound : d.Sound) :
    d'.Sound := by
  refine sound.of_move (f := moved s t) (fun q id here => ?_) contents
  by_cases atTarget : t <+: q
  · obtain ⟨rest, rfl⟩ := atTarget
    rw [moves.target rest] at here
    refine ⟨s ++ rest, here, ?_⟩
    rw [moved_inside (List.prefix_append s rest), List.drop_left]
  by_cases atSource : s <+: q
  · obtain ⟨rest, rfl⟩ := atSource
    rw [moves.source rest] at here
    cases here
  · rw [moves.outside q atSource atTarget] at here
    exact ⟨q, here, moved_outside atSource⟩

/-- What is in a directory stays in one, if the target is moved into a directory that stays. -/
theorem rooted (moves : MovesTree d d' s t) (rooted : d.Rooted)
    (parent : ∀ p name, t = p ++ [name] → d'.at? p = some .directory) : d'.Rooted := by
  intro p name present
  by_cases atTarget : t <+: p ++ [name]
  · rcases List.prefix_concat_iff.mp atTarget with same | ⟨rest, rfl⟩
    · exact parent p name same
    · rw [List.append_assoc, moves.target, ← List.append_assoc] at present
      rw [moves.target]
      exact rooted _ name present
  by_cases atSource : s <+: p ++ [name]
  · obtain ⟨rest, same⟩ := atSource
    rw [← same, moves.source] at present
    exact absurd rfl present
  · rw [moves.outside _ atSource atTarget] at present
    rw [moves.outside p]
    · exact rooted p name present
    · exact fun above => atSource (above.trans (List.prefix_append p [name]))
    · exact fun above => atTarget (above.trans (List.prefix_append p [name]))

end MovesTree

/-! ## The places along a path -/

/-- Every path goes through the place where it starts. -/
theorem along_ne_nil : along p names ≠ [] := by
  cases names <;> exact List.cons_ne_nil _ _

/-- Where names lead is the last place along them. -/
theorem getLast?_along (h : d.follow p names = .ok q) : (along p names).getLast? = some q := by
  induction names generalizing p with
  | nil =>
    cases h
    rfl
  | cons name names ih =>
    have here := at?_of_follow_cons h
    rw [along, List.getLast?_cons_of_ne_nil along_ne_nil]
    cases void : isVoidName name with
    | true =>
      rw [follow_void void here] at h
      exact ih h
    | false =>
      rw [follow_named void here] at h
      split at h
      · cases h
      · exact ih h

/-- Names that never lead upwards lead through places above the last one only. -/
theorem prefix_of_mem_along (down : ".." ∉ names) {last : Place}
    (h : (along p names).getLast? = some last) : ∀ q ∈ along p names, q <+: last := by
  induction names generalizing p with
  | nil =>
    cases h
    intro q mem
    rw [List.mem_singleton.mp mem]
    exact List.prefix_refl p
  | cons name names ih =>
    rw [List.mem_cons, not_or] at down
    obtain ⟨notUp, down⟩ := down
    rw [along, List.getLast?_cons_of_ne_nil along_ne_nil] at h
    have rest := ih down h
    intro q mem
    rcases List.mem_cons.mp mem with rfl | mem
    · have next := rest _ (by cases names <;> exact List.mem_cons_self)
      refine List.IsPrefix.trans ?_ next
      split
      · exact List.prefix_refl q
      · rw [into, if_neg (Ne.symm notUp)]
        exact List.prefix_append q [name]
    · exact rest q mem

/-- All places along a path that leads to a directory can be gone through. -/
theorem open_of_mem_along (reached : d.Reached p) (h : d.follow p names = .ok q) (last : d.Open q) :
    ∀ r ∈ along p names, d.Open r := by
  induction names generalizing p with
  | nil =>
    cases h
    intro r mem
    rw [List.mem_singleton.mp mem]
    exact last
  | cons name names ih =>
    have way := reached.open (at?_of_follow_cons h)
    intro r mem
    rcases List.mem_cons.mp mem with rfl | mem
    · exact way
    cases void : isVoidName name with
    | true =>
      rw [follow_void void way.at?] at h
      rw [void] at mem
      exact ih reached h r mem
    | false =>
      rw [follow_named void way.at?] at h
      rw [void] at mem
      split at h
      · cases h
      · exact ih (reached_into way) h r mem

/-- Names lead where they led, as long as the places along them are directories still. -/
theorem follow_of_along (h : d.follow p names = .ok q)
    (same : ∀ r ∈ along p names, d.at? r = some .directory → d'.at? r = some .directory) :
    d'.follow p names = .ok q := by
  induction names generalizing p with
  | nil => exact h
  | cons name names ih =>
    have here := at?_of_follow_cons h
    have here' := same p List.mem_cons_self here
    have rest (r : Place) (mem : r ∈ along (if isVoidName name then p else into p name) names) :=
      same r (List.mem_cons_of_mem _ mem)
    cases void : isVoidName name with
    | true =>
      rw [void] at rest
      rw [follow_void void here] at h
      rw [follow_void void here']
      exact ih h rest
    | false =>
      rw [void] at rest
      rw [follow_named void here] at h
      rw [follow_named void here']
      split at h
      · cases h
      · rename_i short
        rw [if_neg short]
        exact ih h rest

end LogTopology.Disk
