import LogTopology.Overlay
import LogTopology.Proofs.Document.Section
/-!
# Merging the entries of a section

The entries of an overlay are merged one after the other into a list that grows and changes
meanwhile. What has become of it in the end is told by the two lists alone (`Overlaid`): the names
that are new are appended in the order in which they first come, every field has the value that was
given last, and what the overlay does not name stays as it was.

`mergeEntries_overlaid` finds this in every run that goes well. The induction is on the overlay,
where the base of the rest is what its first entry leaves; laying one entry has two cases, a name
that is there (`overlaid_of_old`) and one that is new (`overlaid_of_new`), and `Overlaid.append`
puts the first entry and the rest together.

A base may have nameless entries and repeated names: fields go to the first entry of a name, and the
others stay. An entry of the overlay is supposed to have no key twice.
-/

namespace LogTopology.Overlay

open Document

variable {base overlay result : List Table} {entry : Table} {key name : String}

/-- The value under a key in the first entry of a name. -/
def field? (entries : List Table) (name key : String) : Option Value :=
  (findNamed? entries name).bind (·.get? key)

/-- The value that the last entry of a name with this key has under it. -/
def lastField? (entries : List Table) (name key : String) : Option Value :=
  entries.reverse.findSome? fun e => if entryName? e = some name then e.get? key else none

/-- The names of an overlay that no entry of the base has, in the order in which they first come. -/
def newNames (base overlay : List Table) : List String :=
  ((overlay.filterMap entryName?).filter fun n => some n ∉ base.map entryName?).eraseDups

/-- The entries of an overlay over those of a base. -/
structure Overlaid (base overlay result : List Table) : Prop where
  names : result.map entryName? = base.map entryName? ++ (newNames base overlay).map some
  fields : ∀ name key,
    field? result name key = (lastField? overlay name key).or (field? base name key)
  others : ∀ i < base.length,
    (∀ n, some n ∈ overlay.map entryName? → positionOf? base n ≠ some i) → result[i]? = base[i]?

/-- The value that comes last is that of the later entries, where they have one. -/
theorem lastField?_append (first second : List Table) (name key : String) :
    lastField? (first ++ second) name key =
      (lastField? second name key).or (lastField? first name key) := by
  unfold lastField?
  rw [List.reverse_append, List.findSome?_append]

/-- A single entry gives its own value. -/
theorem lastField?_singleton :
    lastField? [entry] name key = if entryName? entry = some name then entry.get? key else none :=
  List.findSome?_singleton

/-- The names that are new to a base and then those that are new to what came of it. -/
theorem newNames_append {first second next : List Table}
    (names : next.map entryName? = base.map entryName? ++ (newNames base first).map some) :
    newNames base (first ++ second) = newNames base first ++ newNames next second := by
  unfold newNames
  rw [List.filterMap_append, List.filter_append, List.eraseDups_append, List.removeAll,
    List.filter_filter]
  congr 2
  apply List.filter_congr
  intro n _
  have listed : some n ∈ next.map entryName? ↔
      n ∈ newNames base first ∨ some n ∈ base.map entryName? := by
    rw [names, List.mem_append, or_comm]
    simp only [List.mem_map, Option.some.injEq, exists_eq_right]
  unfold newNames at listed
  rw [List.mem_eraseDups] at listed
  rw [List.elem_eq_mem, ← decide_not, ← Bool.decide_and, decide_eq_decide, listed, not_or]

/-- A name that the base has is not new. -/
theorem newNames_of_old (named : entryName? entry = some name)
    (old : some name ∈ base.map entryName?) : newNames base [entry] = [] := by
  unfold newNames
  rw [List.filterMap_cons_some named, List.filter_cons_of_neg]
  · rfl
  · rw [decide_eq_true_eq]
    exact not_not_intro old

/-- A name that the base lacks is new, and appended once. -/
theorem newNames_of_new (named : entryName? entry = some name)
    (new : some name ∉ base.map entryName?) : newNames base [entry] = [name] := by
  unfold newNames
  rw [List.filterMap_cons_some named, List.filter_cons_of_pos]
  · rfl
  · rw [decide_eq_true_eq]
    exact new

/-- An appended entry is the only one of its name. -/
theorem field?_append_new (named : entryName? entry = some name)
    (new : some name ∉ base.map entryName?) (n : String) :
    field? (base ++ [entry]) n key =
      (if entryName? entry = some n then entry.get? key else none).or (field? base n key) := by
  unfold field?
  rw [findNamed?_append, findNamed?_cons]
  by_cases here : entryName? entry = some n
  · cases named.symm.trans here
    rw [findNamed?_eq_none_iff.mpr new, if_pos here, if_pos here]
    exact Option.or_none.symm
  · have absent : findNamed? [] n = none := rfl
    rw [if_neg here, if_neg here, absent, Option.or_none, Option.none_or]

/-- The fields of an entry count before those that they were written over. -/
theorem field?_overwriteNamed (keyed : entry.Keyed) (named : entryName? entry = some name)
    (old : some name ∈ base.map entryName?) (n : String) :
    field? (overwriteNamed name entry base) n key =
      (if entryName? entry = some n then entry.get? key else none).or (field? base n key) := by
  unfold field?
  rw [findNamed?_overwriteNamed fun t _ => entryName?_insertAll keyed named t, named]
  by_cases same : n = name
  · rw [if_pos same, if_pos (by rw [same]), same]
    obtain ⟨e, found⟩ : ∃ e, findNamed? base name = some e := by
      rw [← Option.ne_none_iff_exists', ne_eq, findNamed?_eq_none_iff]
      exact not_not_intro old
    rw [found]
    exact Table.get?_insertAll keyed e key
  · rw [if_neg same, if_neg fun h => same (Option.some.inj h).symm, Option.none_or]

/-! ## Runs of entries -/

theorem Overlaid.refl (base : List Table) : Overlaid base [] base :=
  ⟨(List.append_nil _).symm, fun _ _ => rfl, fun _ _ _ => rfl⟩

/-- Entries keep their places under names that are appended. -/
theorem positionOf?_of_names {next : List Table} {names : List (Option String)} {n : String} {i : Nat}
    (hnames : next.map entryName? = base.map entryName? ++ names) (inside : i < base.length)
    (found : positionOf? next n = some i) : positionOf? base n = some i := by
  rw [positionOf?_eq] at found ⊢
  rw [hnames, List.findIdx?_append] at found
  rcases Option.or_eq_some_iff.mp found with here | ⟨-, beyond⟩
  · exact here
  · obtain ⟨j, -, far⟩ := Option.map_eq_some_iff.mp beyond
    rw [List.length_map] at far
    omega

/-- An overlay laid over what another one has left. -/
theorem Overlaid.append {first second next : List Table} (left : Overlaid base first next)
    (right : Overlaid next second result) : Overlaid base (first ++ second) result := by
  refine ⟨?_, ?_, ?_⟩
  · rw [right.names, left.names, newNames_append left.names, List.map_append, List.append_assoc]
  · intro name key
    rw [right.fields, left.fields, lastField?_append, Option.or_assoc]
  · intro i inside untouched
    have grown : base.length ≤ next.length := by
      have lengths := congrArg List.length left.names
      rw [List.length_map, List.length_append, List.length_map] at lengths
      omega
    rw [right.others i (Nat.lt_of_lt_of_le inside grown), left.others i inside]
    · intro n mem
      exact untouched n (by rw [List.map_append]; exact List.mem_append_left _ mem)
    · intro n mem found
      refine untouched n ?_ (positionOf?_of_names left.names inside found)
      rw [List.map_append]
      exact List.mem_append_right _ mem

/-- An entry whose name is there is written over the first entry of the name. -/
theorem overlaid_of_old (keyed : entry.Keyed) (named : entryName? entry = some name)
    (old : some name ∈ base.map entryName?) :
    Overlaid base [entry] (overwriteNamed name entry base) := by
  refine ⟨?_, ?_, ?_⟩
  · rw [map_entryName?_overwriteNamed fun t _ => entryName?_insertAll keyed named t,
      newNames_of_old named old]
    exact (List.append_nil _).symm
  · intro n key
    rw [field?_overwriteNamed keyed named old, lastField?_singleton]
  · intro i _ untouched
    refine getElem?_overwriteNamed (untouched name ?_)
    rw [List.map_singleton, named]
    exact List.mem_singleton_self _

/-- An entry whose name is new is appended. -/
theorem overlaid_of_new (named : entryName? entry = some name)
    (new : some name ∉ base.map entryName?) : Overlaid base [entry] (base ++ [entry]) := by
  refine ⟨?_, ?_, ?_⟩
  · rw [newNames_of_new named new, List.map_append, List.map_singleton, named]
    rfl
  · intro n key
    rw [field?_append_new named new, lastField?_singleton]
  · intro i inside _
    exact List.getElem?_append_left inside

/-- Merging entries lays them over the base. -/
theorem mergeEntries_overlaid {section_ : String} (keyed : ∀ e ∈ overlay, e.Keyed)
    (merged : (mergeEntries section_ base overlay).outcome = .ok ()) :
    Overlaid base overlay (mergeEntries section_ base overlay).result := by
  induction overlay generalizing base with
  | nil => exact .refl base
  | cons entry overlay ih =>
    obtain ⟨here, later⟩ := List.forall_mem_cons.mp keyed
    unfold mergeEntries at merged ⊢
    cases named : entryName? entry with
    | none =>
      rw [named] at merged
      cases merged
    | some name =>
      rw [named] at merged
      dsimp only at merged ⊢
      by_cases old : some name ∈ base.map entryName?
      · rw [if_pos (any_isNamed_iff.mpr old)] at merged ⊢
        exact (overlaid_of_old here named old).append (ih later merged)
      · have absent : ¬base.any (isNamed name) = true := by
          rw [any_isNamed_iff]
          exact old
        rw [if_neg absent] at merged ⊢
        exact (overlaid_of_new named old).append (ih later merged)

end LogTopology.Overlay
