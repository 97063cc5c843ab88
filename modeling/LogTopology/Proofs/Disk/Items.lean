import LogTopology.Proofs.Disk.Places
import LogTopology.Proofs.NamedList
import LogTopology.Proofs.Setup
import Mathlib.Data.List.Pairwise
/-!
# What operations on files do to places

Each operation is told by what it makes of every place: opening a missing file fills one place
(`openOrMake_eq_ok`), removing a file empties one (`removeFile_eq_ok`), and moving a file takes it
from one place to another (`moves_of_items`). None of them closes an open place (`Puts.keeps`,
`Moves.keeps`).

A disk is `Sound` when each of its files has contents of its own: those of a file are there, and no
other file has them. Opening, removing, moving and writing keep a disk sound, so two paths with
different places never share a text by accident. A disk that is given by its items is sound when its
files are numbered differently (`sound_of_ids`).

The items of a disk are a list in which the first item of a place counts. `lookup_append_new` and
`lookup_map_place` say what becomes of the first items under appending and moving; the operations
above are read off from these two.

Moving is told here for files at empty places. Directories that are moved, with all that is below
them, have a module of their own.
-/

namespace LogTopology.Disk

/-- Every file has contents of its own. -/
structure Sound (d : Disk) : Prop where
  stored : ∀ p id, d.at? p = some (.file id) → id < d.contents.length
  apart : ∀ p q id, d.at? p = some (.file id) → d.at? q = some (.file id) → p = q

/-- The disk with another item at one place. -/
def Puts (before after : Disk) (p : Place) (item : Option Item) : Prop :=
  ∀ q, after.at? q = if q = p then item else before.at? q

variable {d d' : Disk} {p q s t : Place} {item : Item} {path source target : String}

/-! ## Lists of items -/

/-- A new item behind all others is found at its place, and the others at theirs. -/
theorem lookup_append_new {items : List (Place × Item)} (h : items.lookup p = none) :
    (items ++ [(p, item)]).lookup q = if q = p then some item else items.lookup q := by
  rw [List.lookup_append, lookup_cons_eq_ite, List.lookup_nil]
  by_cases same : q = p
  · rw [if_pos same, if_pos same, same, h, Option.none_or]
  · rw [if_neg same, if_neg same, Option.or_none]

/-- Where exactly the entries of one place move to another, the first item of the one is the first
item of the other. -/
theorem lookup_map_place {items : List (Place × Item)} {move : Place → Place}
    (h : ∀ e ∈ items, move e.1 = q ↔ e.1 = p) :
    (items.map fun e => (move e.1, e.2)).lookup q = items.lookup p := by
  induction items with
  | nil => rfl
  | cons e items ih =>
    have first := h e List.mem_cons_self
    have rest := ih fun e mem => h e (List.mem_cons_of_mem _ mem)
    rw [List.map_cons, lookup_cons_eq_ite, lookup_cons_eq_ite, rest]
    by_cases here : e.1 = p
    · rw [if_pos (first.mpr here).symm, if_pos here.symm]
    · rw [if_neg fun same => here (first.mp same.symm), if_neg fun same => here same.symm]

/-- What is first at a place after a move was first at the place that it comes from. -/
theorem exists_of_lookup_map {items : List (Place × Item)} {move : Place → Place}
    (h : (items.map fun e => (move e.1, e.2)).lookup q = some item) :
    ∃ p, items.lookup p = some item ∧ move p = q := by
  induction items with
  | nil => cases h
  | cons e items ih =>
    rw [List.map_cons, lookup_cons_eq_ite] at h
    split at h
    · rename_i here
      refine ⟨e.1, ?_, here.symm⟩
      rw [lookup_cons_eq_ite, if_pos rfl]
      exact h
    · rename_i elsewhere
      obtain ⟨p, found, hp⟩ := ih h
      refine ⟨p, ?_, hp⟩
      rw [lookup_cons_eq_ite, if_neg, found]
      intro same
      rw [same] at hp
      exact elsewhere hp.symm

/-! ## Places that change -/

/-- An empty place has no item. -/
theorem lookup_of_at?_eq_none (h : d.at? p = none) : d.items.lookup p = none := by
  unfold Disk.at? at h
  split at h
  · cases h
  · exact h

/-- What changes only where there is no directory closes no way. -/
theorem keeps_of_directories
    (h : ∀ p, d.at? p = some .directory → d'.at? p = some .directory) : Keeps d d' :=
  fun _ way q below => h q (way q below)

/-- Filling, changing or emptying one place keeps all directories, if it was none. -/
theorem Puts.keeps {new : Option Item} (puts : Puts d d' p new)
    (old : d.at? p ≠ some .directory) : Keeps d d' := by
  apply keeps_of_directories
  intro q here
  rw [puts q, if_neg, here]
  intro same
  rw [same] at here
  exact old here

/-- A place where there is something else than a directory does not lead upwards. -/
theorem not_up (h : d.at? p ≠ some .directory) : p.all (· = "..") = false := by
  cases up : p.all (· = "..") with
  | false => rfl
  | true => exact absurd (at?_of_up up) h

/-- Away from dots that lead up, what is at a place is its item. -/
theorem at?_of_not_up (h : p.all (· = "..") = false) : d.at? p = d.items.lookup p := by
  unfold Disk.at?
  rw [if_neg (ne_true_of_eq_false h)]

/-- A change of the items at one place that is not above everything. -/
theorem puts_of_lookup {new : Option Item} (down : p.all (· = "..") = false)
    (h : ∀ q, d'.items.lookup q = if q = p then new else d.items.lookup q) : Puts d d' p new := by
  intro q
  cases up : q.all (· = "..") with
  | true =>
    rw [at?_of_up up, if_neg, at?_of_up up]
    intro same
    rw [same, down] at up
    cases up
  | false => rw [at?_of_not_up up, at?_of_not_up up, h q]

/-! ## Opening -/

/-- Opening for writing finds what is there, or fills an empty place with a new file. -/
theorem openOrMake_eq_ok (h : d.openOrMake path = .ok (item, d')) :
    endsWithSlash path = false ∧ ∃ p, d.locate path = .ok p ∧ item ≠ .directory ∧
      ((d.at? p = some item ∧ d' = d) ∨
        (d.at? p = none ∧ item = .file d.contents.length ∧ Puts d d' p (some item) ∧
          d'.contents = d.contents ++ [[]])) := by
  obtain ⟨p, located, h⟩ := Setup.bind_eq_ok.mp h
  split at h
  · cases h
  · rename_i found other here
    split at h
    · cases h
    · rename_i noSlash
      cases h
      refine ⟨eq_false_of_ne_true noSlash, p, located, ?_, .inl ⟨here, rfl⟩⟩
      rintro rfl
      exact other rfl
  · rename_i here
    split at h
    · cases h
    · rename_i noSlash
      cases h
      have down := not_up (p := p) (d := d) (by rw [here]; exact nofun)
      refine ⟨eq_false_of_ne_true noSlash, p, located, nofun, .inr ⟨here, rfl, ?_, rfl⟩⟩
      exact puts_of_lookup down fun q => lookup_append_new (lookup_of_at?_eq_none here)

/-! ## Removing -/

/-- Removing a file empties its place and keeps all contents. It is refused for a directory. -/
theorem removeFile_eq_ok (h : d.removeFile path = .ok d') :
    ∃ p, d.locate path = .ok p ∧ d.at? p ≠ some .directory ∧ Puts d d' p none ∧
      d'.contents = d.contents := by
  obtain ⟨p, located, h⟩ := Setup.bind_eq_ok.mp h
  split at h
  · cases h
  · cases h
  · rename_i item other here
    cases h
    have file : d.at? p ≠ some .directory := by
      rw [here]
      intro same
      cases same
      exact other rfl
    exact ⟨p, located, file, puts_of_lookup (not_up file) fun q => lookup_filter_ne p q d.items, rfl⟩

/-- Removing something that is there and no directory succeeds. -/
theorem exists_removeFile (located : d.locate path = .ok p)
    (present : d.at? p ≠ none) (other : d.at? p ≠ some .directory) :
    ∃ room, d.removeFile path = .ok room := by
  obtain ⟨item, here⟩ := Option.ne_none_iff_exists'.mp present
  have file : item ≠ .directory := fun same => other (same ▸ here)
  simp only [removeFile, located, bind, Except.bind, here]
  cases item with
  | directory => exact absurd rfl file
  | file | nothing | full => exact ⟨_, rfl⟩

/-! ## Moving -/

/-- Moving takes an item, and what is below it, from the place of one path to that of another. -/
theorem rename_eq_ok (h : d.rename source target = .ok d') :
    ∃ s t item, d.locate source = .ok s ∧ d.locate target = .ok t ∧ d.at? s = some item ∧
      d' = { d with items := d.items.map fun e => (moved s t e.1, e.2) } := by
  obtain ⟨s, atSource, h⟩ := Setup.bind_eq_ok.mp h
  obtain ⟨t, atTarget, h⟩ := Setup.bind_eq_ok.mp h
  split at h
  · cases h
  · rename_i item here
    cases h
    exact ⟨s, t, item, atSource, atTarget, here, rfl⟩

/-- What is at the source or below it moves to the same place below the target. -/
theorem moved_inside (h : s <+: p) : moved s t p = t ++ p.drop s.length := by
  unfold moved
  rw [if_pos h]

/-- What is not below the source stays. -/
theorem moved_outside (h : ¬s <+: p) : moved s t p = p := by
  unfold moved
  rw [if_neg h]

/-- Nothing that moves comes to a place outside of both ends, and nothing else leaves one. -/
theorem moved_eq_iff_of_outside (hs : ¬s <+: q) (ht : ¬t <+: q) : moved s t p = q ↔ p = q := by
  by_cases inside : s <+: p
  · rw [moved_inside inside]
    constructor
    · intro same
      exact absurd ⟨_, same⟩ ht
    · intro same
      rw [same] at inside
      exact absurd inside hs
  · rw [moved_outside inside]

/-- A file that moves to an empty place is there afterwards and nowhere else, and what is neither
below the one place nor below the other stays. -/
structure Moves (before after : Disk) (s t : Place) : Prop where
  target : after.at? t = before.at? s
  source : after.at? s = none
  outside : ∀ q, ¬s <+: q → ¬t <+: q → after.at? q = before.at? q

/-- Moving leaves alone what is neither below the one place nor below the other. -/
theorem at?_of_moved_outside (h : d'.items = d.items.map fun e => (moved s t e.1, e.2)) {q : Place}
    (notSource : ¬s <+: q) (notTarget : ¬t <+: q) : d'.at? q = d.at? q := by
  cases up : q.all (· = "..") with
  | true => rw [at?_of_up up, at?_of_up up]
  | false =>
    rw [at?_of_not_up up, at?_of_not_up up, h]
    exact lookup_map_place fun e _ => moved_eq_iff_of_outside notSource notTarget

/-- Moving a file to an empty place, told by what is at every place. -/
theorem moves_of_items (file : d.at? s ≠ some .directory) (absent : d.at? t = none)
    (apart : ¬t <+: s) (h : d'.items = d.items.map fun e => (moved s t e.1, e.2)) :
    Moves d d' s t := by
  have downTarget := not_up (p := t) (d := d) (by rw [absent]; exact nofun)
  have downSource := not_up file
  -- Nothing is at the target, so nothing is hidden by what arrives there.
  have emptyTarget : ∀ e ∈ d.items, e.1 ≠ t := by
    intro e mem same
    have none := List.lookup_eq_none_iff.mp (lookup_of_at?_eq_none absent) e mem
    rw [same, bne_self_eq_false] at none
    cases none
  refine ⟨?_, ?_, fun q => at?_of_moved_outside h⟩
  · rw [at?_of_not_up downTarget, at?_of_not_up downSource, h]
    apply lookup_map_place
    intro e mem
    by_cases inside : s <+: e.1
    · rw [moved_inside inside]
      obtain ⟨rest, hrest⟩ := inside
      rw [← hrest, List.drop_left]
      constructor
      · intro same
        rw [List.append_right_eq_self.mp same, List.append_nil]
      · intro same
        rw [List.append_right_eq_self.mp same, List.append_nil]
    · rw [moved_outside inside]
      constructor
      · intro same
        exact absurd same (emptyTarget e mem)
      · intro same
        rw [same] at inside
        exact absurd (List.prefix_refl s) inside
  · rw [at?_of_not_up downSource, h, List.lookup_eq_none_iff]
    intro e' mem
    obtain ⟨e, -, rfl⟩ := List.mem_map.mp mem
    apply bne_iff_ne.mpr
    intro same
    by_cases inside : s <+: e.1
    · rw [moved_inside inside] at same
      exact apart ⟨_, same.symm⟩
    · rw [moved_outside inside] at same
      rw [← same] at inside
      exact inside (List.prefix_refl s)

/-- Moving a file to an empty place keeps all directories. -/
theorem Moves.keeps (moves : Moves d d' s t) (file : d.at? s ≠ some .directory)
    (absent : d.at? t = none) : Keeps d d' := by
  intro p way q below
  rw [moves.outside q, way q below]
  · intro inside
    exact file (way s (inside.trans below))
  · intro inside
    have directory := way t (inside.trans below)
    rw [absent] at directory
    cases directory

/-! ## Files with contents of their own -/

/-- Files keep their own contents when each comes from a file, and from one place only. -/
theorem Sound.of_move (sound : d.Sound) {f : Place → Place}
    (h : ∀ q id, d'.at? q = some (.file id) → ∃ p, d.at? p = some (.file id) ∧ f p = q)
    (contents : d'.contents = d.contents) : d'.Sound := by
  constructor
  · intro q id here
    obtain ⟨p, found, -⟩ := h q id here
    rw [contents]
    exact sound.stored p id found
  · intro q r id hq hr
    obtain ⟨p, foundQ, rfl⟩ := h q id hq
    obtain ⟨p', foundR, rfl⟩ := h r id hr
    rw [sound.apart p p' id foundQ foundR]

/-- Removing a file leaves the others with contents of their own. -/
theorem Sound.of_puts_none (sound : d.Sound) (puts : Puts d d' p none)
    (contents : d'.contents = d.contents) : d'.Sound := by
  apply sound.of_move (f := id) _ contents
  intro q id here
  rw [puts q] at here
  split at here
  · cases here
  · exact ⟨q, here, rfl⟩

/-- Moving a file leaves every file with contents of its own. -/
theorem Sound.of_rename (sound : d.Sound) (file : d.at? s ≠ some .directory)
    (h : d' = { d with items := d.items.map fun e => (moved s t e.1, e.2) }) : d'.Sound := by
  apply sound.of_move (f := moved s t) _ (by rw [h])
  intro q id here
  have down := not_up (p := q) (d := d') (by rw [here]; exact nofun)
  rw [at?_of_not_up down, h] at here
  obtain ⟨p, found, hp⟩ := exists_of_lookup_map here
  refine ⟨p, ?_, hp⟩
  rw [at?_of_not_up, found]
  by_cases inside : s <+: p
  · obtain ⟨rest, rfl⟩ := inside
    rw [List.all_append, not_up file, Bool.false_and]
  · rw [moved_outside inside] at hp
    rw [hp, down]

/-- A new file has contents of its own, the new ones. -/
theorem Sound.of_puts_new (sound : d.Sound)
    (puts : Puts d d' p (some (.file d.contents.length)))
    (contents : d'.contents = d.contents ++ [[]]) : d'.Sound := by
  -- The number of the new file is larger than any that is in use.
  have fresh : ∀ q, d.at? q ≠ some (.file d.contents.length) := by
    intro q here
    exact Nat.lt_irrefl _ (sound.stored q _ here)
  have size : d'.contents.length = d.contents.length + 1 := by
    rw [contents, List.length_append, List.length_singleton]
  constructor
  · intro q id here
    rw [puts q] at here
    split at here
    · cases here
      omega
    · have := sound.stored q id here
      omega
  · intro q r id hq hr
    rw [puts q] at hq
    rw [puts r] at hr
    by_cases atQ : q = p <;> by_cases atR : r = p
    · rw [atQ, atR]
    · rw [if_pos atQ] at hq
      rw [if_neg atR] at hr
      cases hq
      exact absurd hr (fresh r)
    · rw [if_neg atQ] at hq
      rw [if_pos atR] at hr
      cases hr
      exact absurd hq (fresh q)
    · rw [if_neg atQ] at hq
      rw [if_neg atR] at hr
      exact sound.apart q r id hq hr

/-- Writing to a file leaves every file with contents of its own. -/
theorem Sound.setBytes (sound : d.Sound) (id : Nat) (bs : Text.Bytes) :
    (d.setBytes id bs).Sound := by
  constructor
  · intro p other here
    unfold Disk.setBytes
    rw [List.length_set]
    exact sound.stored p other here
  · exact sound.apart

/-- The number of a file. -/
def fileId : Item → Option Nat
  | .file id => some id
  | _ => none

/-- The numbers of the files on a disk, each as often as it is in use. -/
def ids (d : Disk) : List Nat :=
  d.items.filterMap fun e => fileId e.2

/-- A file at a place is one of the items, and its number is in use. -/
theorem mem_ids_of_at? {id : Nat} (h : d.at? p = some (.file id)) :
    (p, Item.file id) ∈ d.items ∧ id ∈ d.ids := by
  rw [at?_of_not_up (not_up (by rw [h]; exact nofun))] at h
  have mem := mem_of_lookup h
  exact ⟨mem, List.mem_filterMap.mpr ⟨_, mem, rfl⟩⟩

/-- A disk that uses each of its numbers once has contents of its own for every file. -/
theorem sound_of_ids (once : d.ids.Nodup) (stored : ∀ id ∈ d.ids, id < d.contents.length) :
    d.Sound := by
  refine ⟨fun p id here => stored id (mem_ids_of_at? here).2, ?_⟩
  intro p q id hp hq
  by_contra other
  have distinct : (p, Item.file id) ≠ (q, Item.file id) := by
    intro same
    cases same
    exact other rfl
  have : Std.Symm fun a b : Place × Item =>
      ∀ i, fileId a.2 = some i → ∀ j, fileId b.2 = some j → i ≠ j :=
    ⟨fun _ _ h i hi j hj => (h j hj i hi).symm⟩
  have apart := (List.pairwise_filterMap.mp once).forall (mem_ids_of_at? hp).1
    (mem_ids_of_at? hq).1 distinct
  exact apart id rfl id rfl rfl

end LogTopology.Disk
