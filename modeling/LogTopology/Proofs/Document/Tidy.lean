import LogTopology.Document.MarkedDate
import LogTopology.Document.Outline
import LogTopology.Proofs.NamedList
/-!
# Tidy trees

A tree is tidy when no table in it has a key twice. There are two kinds of trees, the values of a
document and the outlines that a text is read into, and `Value.Tidy` and `Node.Tidy` say the same of
both. Every edit of an outline keeps it tidy, as a key is only ever added where it is missing
(`Tidy.within?`, `Tidy.assign?`); and a tidy outline stands for a tidy tree
(`Outline.Tidy.toEntries`).

An edit goes down a path of keys and makes the tables that are missing on the way, so the induction
is on the path, and what is done at its end is only asked to make tidy nodes of tidy ones.

That an edit succeeds is not told here. It fails where a key of the path holds a value, or a table
that must not be added to.
-/

namespace LogTopology.Document

/-- No key comes twice. -/
def Table.Keyed (t : Table) : Prop :=
  (t.map Prod.fst).Nodup

/-- No table in the tree has a key twice. -/
inductive Value.Tidy : Value → Prop where
  | text (s : String) : Tidy (.text s)
  | integer (n : Int) : Tidy (.integer n)
  | float (x : Decimal.Binary64) : Tidy (.float x)
  | boolean (b : Bool) : Tidy (.boolean b)
  | datetime (d : Datetime) : Tidy (.datetime d)
  | array {items : List Value} (all : ∀ v ∈ items, Tidy v) : Tidy (.array items)
  | table {t : Table} (keyed : t.Keyed) (all : ∀ e ∈ t, Tidy e.2) : Tidy (.table t)

/-- No key comes twice in the table or in a table below it. -/
def Table.Tidy (t : Table) : Prop :=
  t.Keyed ∧ ∀ e ∈ t, e.2.Tidy

/-- No table below the node has a key twice. -/
inductive Node.Tidy : Node → Prop where
  | value {v : Value} (tidy : v.Tidy) : Tidy (.value v)
  | table {origin : Origin} {o : Outline} (keyed : (o.map Prod.fst).Nodup)
      (all : ∀ e ∈ o, Tidy e.2) : Tidy (.table origin o)
  | tables {elements : List Outline} (keyed : ∀ o ∈ elements, (o.map Prod.fst).Nodup)
      (all : ∀ o ∈ elements, ∀ e ∈ o, Tidy e.2) : Tidy (.tables elements)

/-- No key comes twice in the outline or in a table below it. -/
structure Outline.Tidy (o : Outline) : Prop where
  keyed : (o.map Prod.fst).Nodup
  all : ∀ e ∈ o, e.2.Tidy

variable {o o' : Outline} {n : Node} {key : String}

/-- A table is tidy when its outline is. -/
theorem Node.tidy_table {origin : Origin} : (Node.table origin o).Tidy ↔ Outline.Tidy o := by
  constructor
  · intro h
    cases h with
    | table keyed all => exact ⟨keyed, all⟩
  · intro h
    exact .table h.keyed h.all

/-- An array of tables is tidy when all of its outlines are. -/
theorem Node.tidy_tables {elements : List Outline} :
    (Node.tables elements).Tidy ↔ ∀ o ∈ elements, Outline.Tidy o := by
  constructor
  · intro h o mem
    cases h with
    | tables keyed all => exact ⟨keyed o mem, all o mem⟩
  · intro h
    exact .tables (fun o mem => (h o mem).keyed) fun o mem => (h o mem).all

/-- A table is tidy when its outline comes of an edit that ends with a tidy one. -/
theorem Node.tidy_of_edited_table {edited : Option Outline} {origin : Origin}
    (new : edited.map (Node.table origin) = some n)
    (below : ∀ o, edited = some o → Outline.Tidy o) : n.Tidy := by
  obtain ⟨o, made, rfl⟩ := Option.map_eq_some_iff.mp new
  exact Node.tidy_table.mpr (below o made)

/-- An array of tables stays tidy when its newest table is edited and comes out tidy. -/
theorem Node.tidy_of_edited_newest {edited : Option Outline} {newest : Outline}
    {older : List Outline} (new : edited.map (fun o => Node.tables (o :: older)) = some n)
    (old : (Node.tables (newest :: older)).Tidy)
    (below : Outline.Tidy newest → ∀ o, edited = some o → Outline.Tidy o) : n.Tidy := by
  obtain ⟨o, made, rfl⟩ := Option.map_eq_some_iff.mp new
  obtain ⟨first, rest⟩ := List.forall_mem_cons.mp (Node.tidy_tables.mp old)
  exact Node.tidy_tables.mpr (List.forall_mem_cons.mpr ⟨below first o made, rest⟩)

namespace Outline

/-- An empty outline is tidy. -/
theorem Tidy.nil : Tidy [] :=
  ⟨List.nodup_nil, nofun⟩

/-- An outline is tidy when its first key does not come again, and both its node and the rest are
tidy. -/
theorem tidy_cons : Tidy ((key, n) :: o) ↔ key ∉ o.map Prod.fst ∧ n.Tidy ∧ Tidy o := by
  constructor
  · rintro ⟨keyed, all⟩
    obtain ⟨fresh, keyed⟩ := List.nodup_cons.mp keyed
    obtain ⟨first, all⟩ := List.forall_mem_cons.mp all
    exact ⟨fresh, first, keyed, all⟩
  · rintro ⟨fresh, first, keyed, all⟩
    exact ⟨List.nodup_cons.mpr ⟨fresh, keyed⟩, List.forall_mem_cons.mpr ⟨first, all⟩⟩

/-- A new key at the end leaves an outline tidy. -/
theorem Tidy.append_new (tidy : Tidy o) (fresh : key ∉ o.map Prod.fst) (new : n.Tidy) :
    Tidy (o ++ [(key, n)]) := by
  constructor
  · exact nodup_names_append tidy.keyed fresh n
  · intro e mem
    rcases List.mem_append.mp mem with old | single
    · exact tidy.all e old
    · rw [List.mem_singleton.mp single]
      exact new

/-- An edit adds no key but its own. -/
theorem mem_keys_alter? {edit : Option Node → Option Node} {k : String}
    (h : o.alter? key edit = some o') (mem : k ∈ o'.map Prod.fst) :
    k = key ∨ k ∈ o.map Prod.fst := by
  induction o generalizing o' with
  | nil =>
    obtain ⟨n, -, rfl⟩ := Option.map_eq_some_iff.mp h
    exact .inl (List.mem_singleton.mp mem)
  | cons e o ih =>
    unfold alter? at h
    split at h
    · obtain ⟨n, -, rfl⟩ := Option.map_eq_some_iff.mp h
      rcases List.mem_cons.mp mem with same | later
      · exact .inl same
      · exact .inr (List.mem_cons_of_mem _ later)
    · obtain ⟨rest, hrest, rfl⟩ := Option.map_eq_some_iff.mp h
      rcases List.mem_cons.mp mem with first | later
      · exact .inr (by rw [first]; exact List.mem_cons_self)
      · exact (ih hrest later).imp_right (List.mem_cons_of_mem _)

/-- Editing the node of a key leaves the outline tidy when the edit makes tidy nodes of tidy ones.
-/
theorem Tidy.alter? {edit : Option Node → Option Node} (tidy : Tidy o)
    (hedit : ∀ found n, (∀ m, found = some m → m.Tidy) → edit found = some n → n.Tidy)
    (h : o.alter? key edit = some o') : Tidy o' := by
  induction o generalizing o' with
  | nil =>
    obtain ⟨n, new, rfl⟩ := Option.map_eq_some_iff.mp h
    exact tidy_cons.mpr ⟨List.not_mem_nil, hedit none n nofun new, .nil⟩
  | cons e o ih =>
    obtain ⟨fresh, first, rest⟩ := tidy_cons.mp tidy
    unfold Outline.alter? at h
    split at h
    · rename_i here
      obtain ⟨n, new, rfl⟩ := Option.map_eq_some_iff.mp h
      refine tidy_cons.mpr ⟨by rw [← here]; exact fresh, hedit _ n ?_ new, rest⟩
      intro m same
      cases same
      exact first
    · rename_i other
      obtain ⟨o', ho', rfl⟩ := Option.map_eq_some_iff.mp h
      refine tidy_cons.mpr ⟨fun mem => ?_, first, ih rest ho'⟩
      rcases mem_keys_alter? ho' mem with same | old
      · exact other same
      · exact fresh old

/-- An edit of the table that a path leads to, below tables that are made on the way. -/
theorem Tidy.within? {edit : Outline → Option Outline} {path : List String}
    (hedit : ∀ o o', Tidy o → edit o = some o' → Tidy o') (tidy : Tidy o)
    (h : o.within? edit path = some o') : Tidy o' := by
  induction path generalizing o o' with
  | nil => exact hedit o o' tidy h
  | cons key path ih =>
    refine Tidy.alter? tidy ?_ h
    intro found n old new
    split at new
    · exact Node.tidy_of_edited_table new fun _ => ih .nil
    · exact Node.tidy_of_edited_table new fun _ => ih (Node.tidy_table.mp (old _ rfl))
    · exact Node.tidy_of_edited_newest new (old _ rfl) fun newest _ => ih newest
    · cases new

/-- Opening a table leaves the outline tidy. -/
theorem Tidy.openTable? (tidy : Tidy o) (h : o.openTable? key = some o') : Tidy o' := by
  unfold Outline.openTable? at h
  split at h
  · rename_i missing
    cases h
    refine tidy.append_new ?_ (Node.tidy_table.mpr .nil)
    intro mem
    obtain ⟨n, found⟩ := exists_lookup_of_mem_names mem
    cases missing.symm.trans found
  · rename_i entries found
    cases h
    have kept : Tidy (o.filter fun e => e.1 ≠ key) := by
      constructor
      · exact tidy.keyed.sublist (List.filter_sublist.map Prod.fst)
      · intro e mem
        exact tidy.all e ((List.mem_filter.mp mem).1)
    refine kept.append_new ?_ (Node.tidy_table.mpr (Node.tidy_table.mp (tidy.all _ (mem_of_lookup found))))
    intro mem
    obtain ⟨e, he, same⟩ := List.mem_map.mp mem
    have other := (List.mem_filter.mp he).2
    simp [same] at other
  · cases h

/-- Opening a new element of an array of tables leaves the outline tidy. -/
theorem Tidy.openElement? (tidy : Tidy o) (h : o.openElement? key = some o') : Tidy o' := by
  refine Tidy.alter? tidy ?_ h
  intro found n old new
  split at new
  · cases new
    exact Node.tidy_tables.mpr (List.forall_mem_cons.mpr ⟨.nil, nofun⟩)
  · cases new
    exact Node.tidy_tables.mpr (List.forall_mem_cons.mpr ⟨.nil, Node.tidy_tables.mp (old _ rfl)⟩)
  · cases new

/-- No key is written twice by assignments. -/
theorem Tidy.assign? {v : Value} {last : String} {path : List String} (hv : v.Tidy) (tidy : Tidy o)
    (h : o.assign? v last path = some o') : Tidy o' := by
  induction path generalizing o o' with
  | nil =>
    refine Tidy.alter? tidy ?_ h
    intro found n _ new
    split at new
    · cases new
      exact .value hv
    · cases new
  | cons key path ih =>
    refine Tidy.alter? tidy ?_ h
    intro found n old new
    split at new
    · exact Node.tidy_of_edited_table new fun _ => ih .nil
    · exact Node.tidy_of_edited_table new fun _ => ih (Node.tidy_table.mp (old _ rfl))
    · split at new
      · cases new
      · exact Node.tidy_of_edited_table new fun _ => ih (Node.tidy_table.mp (old _ rfl))
    · split at new
      · cases new
      · exact Node.tidy_of_edited_newest new (old _ rfl) fun newest _ => ih newest
    · cases new

end Outline

/-! ## The tree of an outline -/

/-- An outline stands for the table of its nodes' values, key by key. -/
theorem Outline.toEntries_eq (o : Outline) :
    Outline.toEntries o = o.map fun e => (e.1, e.2.toValue) := by
  induction o with
  | nil => rfl
  | cons e o ih =>
    unfold Outline.toEntries
    rw [ih]
    rfl

/-- An array of outlines stands for the tables of its outlines. -/
theorem Outline.mem_toItems {elements : List Outline} {items : List Value} {v : Value}
    (mem : v ∈ Outline.toItems elements items) :
    v ∈ items ∨ ∃ o ∈ elements, v = .table (Outline.toEntries o) := by
  induction elements generalizing items with
  | nil => exact .inl mem
  | cons o elements ih =>
    unfold Outline.toItems at mem
    rcases ih mem with here | ⟨o', ho', same⟩
    · rcases List.mem_cons.mp here with first | old
      · exact .inr ⟨o, List.mem_cons_self, first⟩
      · exact .inl old
    · exact .inr ⟨o', List.mem_cons_of_mem _ ho', same⟩

/-- The table of an outline has the keys of the outline. -/
theorem Outline.keyed_toEntries {o : Outline} (keyed : (o.map Prod.fst).Nodup) :
    Table.Keyed (Outline.toEntries o) := by
  unfold Table.Keyed
  rw [Outline.toEntries_eq, List.map_map]
  exact keyed

/-- A tidy node stands for a tidy value. -/
theorem Node.Tidy.toValue {n : Node} (tidy : n.Tidy) : n.toValue.Tidy := by
  induction tidy with
  | value tidy =>
    unfold Node.toValue
    exact tidy
  | table keyed all ih =>
    unfold Node.toValue
    refine .table (Outline.keyed_toEntries keyed) ?_
    rw [Outline.toEntries_eq]
    exact List.forall_mem_map.mpr ih
  | tables keyed all ih =>
    unfold Node.toValue
    apply Value.Tidy.array
    intro v mem
    rcases Outline.mem_toItems mem with old | ⟨o, ho, rfl⟩
    · cases old
    · refine .table (Outline.keyed_toEntries (keyed o ho)) ?_
      rw [Outline.toEntries_eq]
      exact List.forall_mem_map.mpr (ih o ho)

/-- A tidy outline stands for a tidy table. -/
theorem Outline.Tidy.toEntries {o : Outline} (tidy : o.Tidy) : Table.Tidy (Outline.toEntries o) := by
  refine ⟨Outline.keyed_toEntries tidy.keyed, ?_⟩
  rw [Outline.toEntries_eq]
  exact List.forall_mem_map.mpr fun e mem => (tidy.all e mem).toValue

end LogTopology.Document
