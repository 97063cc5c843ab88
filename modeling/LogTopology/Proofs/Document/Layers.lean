import LogTopology.Proofs.Document.Section
/-!
# Fields over fields

Writing the fields of a table over another is a long row of writes under single keys, and all its
laws come from two of these: the second of two writes under one key counts, and writes under two
keys may change places when one of the keys is there already. So layers of fields can be put
together first (`Table.insertAll_insertAll`), the order of the keys included, and a table that is
written over itself stays as it is.

A key that comes twice in the upper layer would break both laws, since the first of its places
answers for the key and the last write counts.

The laws for a single key are in `insertAll_insert` and `insert_insertAll`; those for whole layers
follow by induction on the upper layer. The second half lifts them to entries that are found by
name, where a layer is written over the first entry of the name: two layers over one entry are one
layer, and layers over entries of two names do not meet (`overwriteNamed_comm`).
-/

namespace LogTopology.Document

namespace Table

variable {t u fields : Table} {key : String} {v : Value}

/-! ## Tables -/

/-- The fields of a layer are written one after the other. -/
theorem insertAll_cons (t : Table) (key : String) (v : Value) (fields : Table) :
    t.insertAll ((key, v) :: fields) = (t.insert key v).insertAll fields := rfl

/-- Writing under a key adds this key at most. -/
theorem mem_names_insert {name : String} :
    name ∈ (t.insert key v).map Prod.fst ↔ name = key ∨ name ∈ t.map Prod.fst :=
  mem_names_writeNamed

/-- Writing under a key leaves the keys distinct. -/
theorem Keyed.insert (keyed : t.Keyed) : (t.insert key v).Keyed :=
  nodup_names_writeNamed keyed

/-- Writing a layer leaves the keys distinct. -/
theorem Keyed.insertAll (keyed : t.Keyed) (fields : Table) : (t.insertAll fields).Keyed := by
  induction fields generalizing t with
  | nil => exact keyed
  | cons e fields ih => exact ih keyed.insert

/-- A field may be written before or after others when its key is there and not among theirs. -/
theorem insert_insertAll (fresh : key ∉ fields.map Prod.fst) (mem : key ∈ t.map Prod.fst) :
    (t.insertAll fields).insert key v = (t.insert key v).insertAll fields := by
  induction fields generalizing t with
  | nil => rfl
  | cons e fields ih =>
    rw [List.map_cons, List.mem_cons, not_or] at fresh
    rw [insertAll_cons, insertAll_cons, ih fresh.2 (mem_names_insert.mpr (.inr mem))]
    simp only [Table.insert, writeNamed_comm fresh.1 mem]

/-- A layer with one more field is the layer, and then the field. -/
theorem insertAll_insert (keyed : u.Keyed) (t : Table) :
    t.insertAll (u.insert key v) = (t.insertAll u).insert key v := by
  induction u generalizing t with
  | nil => rfl
  | cons e u ih =>
    obtain ⟨first, old⟩ := e
    obtain ⟨fresh, keyed⟩ := List.nodup_cons.mp keyed
    by_cases here : first = key
    · -- The field replaces the first of the layer, and none behind it has its key.
      subst here
      have placed : first ∈ (t.insert first old).map Prod.fst := mem_names_insert.mpr (.inl rfl)
      rw [insertAll_cons, insert_insertAll fresh placed]
      simp only [Table.insert, writeNamed, if_true, writeNamed_writeNamed, insertAll_cons]
    · simp only [Table.insert, writeNamed, here, if_false, insertAll_cons]
      exact ih keyed _

/-- Two layers, one after the other, are the second over the first, in one. -/
theorem insertAll_insertAll (keyed : u.Keyed) (t fields : Table) :
    t.insertAll (u.insertAll fields) = (t.insertAll u).insertAll fields := by
  induction fields generalizing u with
  | nil => rfl
  | cons e fields ih => rw [insertAll_cons, insertAll_cons, ih keyed.insert, insertAll_insert keyed]

/-- Fields that are there with their values change nothing. -/
theorem insertAll_of_subset (keyed : t.Keyed) (there : fields ⊆ t) : t.insertAll fields = t := by
  induction fields with
  | nil => rfl
  | cons e fields ih =>
    obtain ⟨mem, there⟩ := List.cons_subset.mp there
    rw [insertAll_cons, Table.insert, writeNamed_of_lookup (lookup_of_mem keyed mem), ih there]

end Table

/-! ## Entries -/

variable {fields second : Table} {entries more : List Table} {name other : String} {e : Table}

/-- The first entry of the name takes the fields, and those behind it stay. -/
theorem overwriteNamed_cons_of_named (named : entryName? e = some name) :
    overwriteNamed name fields (e :: entries) = e.insertAll fields :: entries :=
  if_pos (isNamed_iff.mpr named)

/-- An entry of another name stays, and those behind it are looked at. -/
theorem overwriteNamed_cons_of_ne (unlike : entryName? e ≠ some name) :
    overwriteNamed name fields (e :: entries) = e :: overwriteNamed name fields entries :=
  if_neg fun named => unlike (isNamed_iff.mp named)

/-- An entry that is written over is an old one with the fields over it. -/
theorem mem_overwriteNamed (mem : e ∈ overwriteNamed name fields entries) :
    e ∈ entries ∨ ∃ old ∈ entries, e = old.insertAll fields := by
  induction entries with
  | nil => cases mem
  | cons first entries ih =>
    by_cases here : entryName? first = some name
    · rw [overwriteNamed_cons_of_named here] at mem
      rcases List.mem_cons.mp mem with rfl | mem
      · exact .inr ⟨first, List.mem_cons_self, rfl⟩
      · exact .inl (List.mem_cons_of_mem _ mem)
    · rw [overwriteNamed_cons_of_ne here] at mem
      rcases List.mem_cons.mp mem with rfl | mem
      · exact .inl List.mem_cons_self
      · rcases ih mem with mem | ⟨old, mem, same⟩
        · exact .inl (List.mem_cons_of_mem _ mem)
        · exact .inr ⟨old, List.mem_cons_of_mem _ mem, same⟩

/-- Where the name is among the first entries, the others stay. -/
theorem overwriteNamed_append_of_old (old : some name ∈ entries.map entryName?) :
    overwriteNamed name fields (entries ++ more) = overwriteNamed name fields entries ++ more := by
  induction entries with
  | nil => cases old
  | cons e entries ih =>
    by_cases here : entryName? e = some name
    · simp only [List.cons_append, overwriteNamed_cons_of_named here]
    · have later : some name ∈ entries.map entryName? :=
        (List.mem_cons.mp old).resolve_left (Ne.symm here)
      simp only [List.cons_append, overwriteNamed_cons_of_ne here, ih later]

/-- Where the name is not among the first entries, they stay. -/
theorem overwriteNamed_append_of_new (new : some name ∉ entries.map entryName?) :
    overwriteNamed name fields (entries ++ more) = entries ++ overwriteNamed name fields more := by
  induction entries with
  | nil => rfl
  | cons e entries ih =>
    rw [List.map_cons, List.mem_cons, not_or] at new
    simp only [List.cons_append, overwriteNamed_cons_of_ne (Ne.symm new.1), ih new.2]

/-- Two layers of fields over one entry are one layer. -/
theorem overwriteNamed_overwriteNamed (keyed : fields.Keyed) (named : entryName? fields = some name)
    (entries : List Table) :
    overwriteNamed name second (overwriteNamed name fields entries) =
      overwriteNamed name (fields.insertAll second) entries := by
  induction entries with
  | nil => rfl
  | cons e entries ih =>
    by_cases here : entryName? e = some name
    · simp only [overwriteNamed_cons_of_named, here, entryName?_insertAll keyed named,
        Table.insertAll_insertAll keyed]
    · simp only [overwriteNamed_cons_of_ne here, ih]

/-- Entries of two names may be written over in either order. -/
theorem overwriteNamed_comm (apart : name ≠ other) (keyed : fields.Keyed)
    (named : entryName? fields = some name) (keyedSecond : second.Keyed)
    (namedSecond : entryName? second = some other) (entries : List Table) :
    overwriteNamed other second (overwriteNamed name fields entries) =
      overwriteNamed name fields (overwriteNamed other second entries) := by
  induction entries with
  | nil => rfl
  | cons e entries ih =>
    have unlike {a b : String} (differ : a ≠ b) {e : Table} (is : entryName? e = some a) :
        entryName? e ≠ some b := by
      rw [is]
      exact fun same => differ (Option.some.inj same)
    by_cases here : entryName? e = some name
    · rw [overwriteNamed_cons_of_named here,
        overwriteNamed_cons_of_ne (unlike apart (entryName?_insertAll keyed named e)),
        overwriteNamed_cons_of_ne (unlike apart here), overwriteNamed_cons_of_named here]
    · by_cases there : entryName? e = some other
      · rw [overwriteNamed_cons_of_ne here, overwriteNamed_cons_of_named there,
          overwriteNamed_cons_of_named there, overwriteNamed_cons_of_ne
            (unlike apart.symm (entryName?_insertAll keyedSecond namedSecond e))]
      · simp only [overwriteNamed_cons_of_ne here, overwriteNamed_cons_of_ne there, ih]

/-- Where the names are distinct, every entry is found under its own. -/
theorem findNamed?_of_mem (distinct : (entries.map entryName?).Nodup) (mem : e ∈ entries)
    (named : entryName? e = some name) : findNamed? entries name = some e := by
  induction entries with
  | nil => cases mem
  | cons first entries ih =>
    obtain ⟨fresh, distinct⟩ := List.nodup_cons.mp distinct
    rw [findNamed?_cons]
    rcases List.mem_cons.mp mem with rfl | mem
    · rw [if_pos named]
    · have unlike : entryName? first ≠ some name := fun same =>
        fresh (List.mem_map.mpr ⟨e, mem, named.trans same.symm⟩)
      rw [if_neg unlike, ih distinct mem]

/-- Writing an entry over itself changes nothing. -/
theorem overwriteNamed_of_find (keyed : e.Keyed) (found : findNamed? entries name = some e) :
    overwriteNamed name e entries = entries := by
  induction entries with
  | nil => rfl
  | cons first entries ih =>
    rw [findNamed?_cons] at found
    by_cases here : entryName? first = some name
    · rw [if_pos here] at found
      cases found
      rw [overwriteNamed_cons_of_named here, Table.insertAll_of_subset keyed (List.Subset.refl _)]
    · rw [if_neg here] at found
      rw [overwriteNamed_cons_of_ne here, ih found]

end LogTopology.Document
