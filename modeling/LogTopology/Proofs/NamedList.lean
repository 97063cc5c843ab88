import LogTopology.NamedList
import Mathlib.Data.List.Nodup
/-!
# Lists of named things

Tables, patterns, pools and marks are kept as lists of names with values, and so are the places of a
disk with their items. The first entry of a name is the one that counts. What the library does not
have of the lookup in such lists is here.

Looking a name up finds an entry exactly when the name is among the names, and where the names are
distinct each entry is found under its own (`lookup_of_mem`). Writing a value under a name is told
by what is found afterwards (`lookup_writeNamed`). Two writes under one name are the later one, and
writes under two names may change places if one of the names is there; from these two laws those of
whole layers of fields follow elsewhere. Lists of distinct names in which the same is found have the
same entries up to their order (`perm_of_lookup`).

Nothing is asked of the values, and of the names only that they can be compared. In a list with a
repeated name the later entries cannot be told from lookups, so no law says what becomes of them.
-/

namespace LogTopology

variable {α β : Type} [BEq α] [LawfulBEq α] {l : List (α × β)} {name : α} {b : β}

/-- The first entry answers for its own name only. -/
theorem lookup_cons_eq_ite [DecidableEq α] (key : α) (v : β) (l : List (α × β)) (name : α) :
    ((key, v) :: l).lookup name = if name = key then some v else l.lookup name := by
  by_cases h : name = key
  · rw [if_pos h, h, List.lookup_cons_self]
  · rw [if_neg h, List.lookup_cons, beq_eq_false_iff_ne.mpr h]

/-- What is written under a name is found under that name, and under no other. -/
theorem lookup_writeNamed [DecidableEq α] (key : α) (v : β) (l : List (α × β)) (name : α) :
    (writeNamed key v l).lookup name = if name = key then some v else l.lookup name := by
  induction l with
  | nil =>
    unfold writeNamed
    rw [lookup_cons_eq_ite]
  | cons e l ih =>
    obtain ⟨first, old⟩ := e
    unfold writeNamed
    by_cases here : first = key
    · rw [if_pos here, lookup_cons_eq_ite, lookup_cons_eq_ite]
      by_cases same : name = key
      · rw [if_pos same, if_pos same]
      · rw [if_neg same, if_neg same, if_neg (by rw [here]; exact same)]
    · rw [if_neg here, lookup_cons_eq_ite, lookup_cons_eq_ite, ih]
      by_cases leads : name = first
      · rw [if_pos leads, if_pos leads, if_neg (by rw [leads]; exact here)]
      · rw [if_neg leads, if_neg leads]

/-- Without the entries of one name, every other name is found as before. -/
theorem lookup_filter_ne [DecidableEq α] (gone name : α) (l : List (α × β)) :
    (l.filter fun e => e.1 ≠ gone).lookup name = if name = gone then none else l.lookup name := by
  induction l with
  | nil => simp
  | cons e l ih =>
    obtain ⟨first, b⟩ := e
    by_cases goes : first = gone
    · rw [List.filter_cons_of_neg (by simp [goes]), ih, lookup_cons_eq_ite]
      by_cases same : name = gone
      · rw [if_pos same, if_pos same]
      · rw [if_neg same, if_neg same, if_neg (by rw [goes]; exact same)]
    · rw [List.filter_cons_of_pos (by simp [goes]), lookup_cons_eq_ite, lookup_cons_eq_ite, ih]
      by_cases here : name = first
      · rw [if_pos here, if_pos here, if_neg (by rw [here]; exact goes)]
      · rw [if_neg here, if_neg here]

/-- What is found under a name is an entry of the list. -/
theorem mem_of_lookup (h : l.lookup name = some b) : (name, b) ∈ l := by
  obtain ⟨before, after, rfl, _⟩ := List.lookup_eq_some_iff.mp h
  simp

/-- A name that is not among the names is not found. -/
theorem lookup_eq_none_of_not_mem (fresh : name ∉ l.map Prod.fst) : l.lookup name = none := by
  rw [List.lookup_eq_none_iff]
  intro e mem
  rw [bne_iff_ne]
  intro same
  exact fresh (List.mem_map.mpr ⟨e, mem, same.symm⟩)

/-- Where the names are distinct, every entry is found under its name. -/
theorem lookup_of_mem (distinct : (l.map Prod.fst).Nodup) (mem : (name, b) ∈ l) :
    l.lookup name = some b := by
  induction l with
  | nil => cases mem
  | cons e l ih =>
    obtain ⟨fresh, distinct⟩ := List.nodup_cons.mp distinct
    rcases List.mem_cons.mp mem with rfl | mem
    · exact List.lookup_cons_self
    · rw [List.lookup_cons, beq_eq_false_iff_ne.mpr]
      · exact ih distinct mem
      · intro same
        exact fresh (List.mem_map.mpr ⟨(name, b), mem, same⟩)

/-- A name is found when it is among the names. -/
theorem exists_lookup_of_mem_names (mem : name ∈ l.map Prod.fst) : ∃ b, l.lookup name = some b := by
  cases h : l.lookup name with
  | some b => exact ⟨b, rfl⟩
  | none =>
    obtain ⟨e, he, rfl⟩ := List.mem_map.mp mem
    have := List.lookup_eq_none_iff.mp h e he
    simp at this

omit [BEq α] [LawfulBEq α] in
/-- A new name at the end leaves the names distinct. -/
theorem nodup_names_append (distinct : (l.map Prod.fst).Nodup) (fresh : name ∉ l.map Prod.fst)
    (b : β) : ((l ++ [(name, b)]).map Prod.fst).Nodup := by
  rw [List.map_append, List.map_singleton, List.nodup_append]
  refine ⟨distinct, List.nodup_cons.mpr ⟨List.not_mem_nil, List.nodup_nil⟩, ?_⟩
  intro a mem b single same
  have here : a = name := same.trans (List.mem_singleton.mp single)
  rw [here] at mem
  exact fresh mem

/-! ## Writing -/

section Writing

variable {α β : Type} [DecidableEq α] {l : List (α × β)} {key other name : α} {v w : β}

/-- Writing under a name that is there changes no name. -/
theorem names_writeNamed_of_mem (mem : key ∈ l.map Prod.fst) :
    (writeNamed key v l).map Prod.fst = l.map Prod.fst := by
  induction l with
  | nil => cases mem
  | cons e l ih =>
    by_cases here : e.1 = key
    · simp only [writeNamed, here, if_true, List.map_cons]
    · have later : key ∈ l.map Prod.fst := (List.mem_cons.mp mem).resolve_left (Ne.symm here)
      simp only [writeNamed, here, if_false, List.map_cons, ih later]

/-- Writing under a new name appends it. -/
theorem writeNamed_of_new (new : key ∉ l.map Prod.fst) : writeNamed key v l = l ++ [(key, v)] := by
  induction l with
  | nil => rfl
  | cons e l ih =>
    rw [List.map_cons, List.mem_cons, not_or] at new
    simp only [writeNamed, Ne.symm new.1, if_false, ih new.2, List.cons_append]

/-- Writing under a name adds no other name. -/
theorem mem_names_writeNamed :
    name ∈ (writeNamed key v l).map Prod.fst ↔ name = key ∨ name ∈ l.map Prod.fst := by
  by_cases mem : key ∈ l.map Prod.fst
  · rw [names_writeNamed_of_mem mem]
    constructor
    · exact .inr
    · rintro (rfl | mem)
      · assumption
      · exact mem
  · rw [writeNamed_of_new mem, List.map_append, List.mem_append, List.map_singleton,
      List.mem_singleton, or_comm]

/-- Writing under a name keeps the names distinct, whether the name is new or not. -/
theorem nodup_names_writeNamed (distinct : (l.map Prod.fst).Nodup) :
    ((writeNamed key v l).map Prod.fst).Nodup := by
  by_cases mem : key ∈ l.map Prod.fst
  · rwa [names_writeNamed_of_mem mem]
  · rw [writeNamed_of_new mem]
    exact nodup_names_append distinct mem v

/-- Of two values written under one name the second counts. -/
theorem writeNamed_writeNamed : writeNamed key w (writeNamed key v l) = writeNamed key w l := by
  induction l with
  | nil => simp only [writeNamed, if_true]
  | cons e l ih =>
    by_cases here : e.1 = key
    · simp only [writeNamed, here, if_true]
    · simp only [writeNamed, here, if_false, ih]

/-- Writing under two names does not depend on the order, when the place of one is there already. -/
theorem writeNamed_comm (apart : key ≠ other) (mem : key ∈ l.map Prod.fst) :
    writeNamed other w (writeNamed key v l) = writeNamed key v (writeNamed other w l) := by
  induction l with
  | nil => cases mem
  | cons e l ih =>
    by_cases here : e.1 = key
    · simp only [writeNamed, here, apart, if_true, if_false]
    · have later : key ∈ l.map Prod.fst := (List.mem_cons.mp mem).resolve_left (Ne.symm here)
      by_cases there : e.1 = other
      · simp only [writeNamed, there, Ne.symm apart, if_true, if_false]
      · simp only [writeNamed, here, there, if_false, ih later]

/-- Writing changes the entry at the place of its name, where the names are distinct. -/
theorem writeNamed_of_place {place : Nat} (distinct : (l.map Prod.fst).Nodup)
    (here : l[place]?.map Prod.fst = some key) :
    writeNamed key v l = l.modify place fun e => (e.1, v) := by
  induction l generalizing place with
  | nil => cases here
  | cons e l ih =>
    obtain ⟨new, distinct⟩ := List.nodup_cons.mp distinct
    cases place with
    | zero =>
      have same : e.1 = key := Option.some.inj here
      simp only [writeNamed, same, if_true, List.modify_zero_cons]
    | succ place =>
      have later : l[place]?.map Prod.fst = some key := here
      have unlike : e.1 ≠ key := by
        rintro rfl
        rw [← List.getElem?_map] at later
        exact new (List.mem_of_getElem? later)
      rw [writeNamed, if_neg unlike, ih distinct later, List.modify_succ_cons]

/-- Writing a value where it is already changes nothing. -/
theorem writeNamed_of_lookup (found : l.lookup key = some v) : writeNamed key v l = l := by
  induction l with
  | nil => cases found
  | cons e l ih =>
    obtain ⟨first, old⟩ := e
    rw [lookup_cons_eq_ite] at found
    by_cases here : first = key
    · rw [if_pos here.symm] at found
      cases found
      simp only [writeNamed, here, if_true]
    · rw [if_neg (Ne.symm here)] at found
      simp only [writeNamed, here, if_false, ih found]

/-- Lists of distinct names in which the same is found have the same entries. -/
theorem perm_of_lookup {l' : List (α × β)} (distinct : (l.map Prod.fst).Nodup)
    (distinct' : (l'.map Prod.fst).Nodup) (same : ∀ name, l.lookup name = l'.lookup name) :
    l.Perm l' := by
  rw [List.perm_ext_iff_of_nodup (.of_map _ distinct) (.of_map _ distinct')]
  rintro ⟨name, v⟩
  constructor
  · intro mem
    exact mem_of_lookup (same name ▸ lookup_of_mem distinct mem)
  · intro mem
    exact mem_of_lookup (same name ▸ lookup_of_mem distinct' mem)

end Writing

end LogTopology
