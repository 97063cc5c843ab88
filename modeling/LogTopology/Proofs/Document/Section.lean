import LogTopology.Document.Section
import LogTopology.Proofs.Document.Field
import LogTopology.Proofs.Document.Tidy
/-!
# Sections and their entries

A section is what it was set to (`get?_setEntries`), and it is read exactly when its key holds an
array of tables (`tableArray_eq_ok_some`); a section that is refused holds something else
(`misshapen_of_tableArray`).

Entries are found by their names, the first one of a name before the others. Writing fields over the
first entry of a name changes that entry alone (`findNamed?_overwriteNamed`), and where the fields
have the name themselves, or none, no entry changes its name (`map_entryName?_overwriteNamed`).
Where an entry of a name stands depends on the names alone (`positionOf?_eq`).

These are the laws that editing and merging documents share. Sections with repeated names are
covered: later entries of a name are never found and never written over.
-/

namespace LogTopology.Document

variable {doc t fields : Table} {entries : List Table} {key name n : String} {i : Nat}

/-! ## Tables -/

/-- Only the key that is written under has another value. -/
theorem Table.get?_insert (t : Table) (key : String) (v : Value) (k : String) :
    (t.insert key v).get? k = if k = key then some v else t.get? k :=
  lookup_writeNamed key v t k

/-- The fields that were written count before those that there were. -/
theorem Table.get?_insertAll (keyed : fields.Keyed) (t : Table) (k : String) :
    (t.insertAll fields).get? k = (fields.get? k).or (t.get? k) := by
  induction fields generalizing t with
  | nil => rfl
  | cons e fields ih =>
    obtain ⟨key, v⟩ := e
    obtain ⟨fresh, keyed⟩ := List.nodup_cons.mp keyed
    change ((t.insert key v).insertAll fields).get? k = _
    rw [ih keyed, get?_insert]
    unfold get?
    rw [lookup_cons_eq_ite]
    by_cases same : k = key
    · have gone : List.lookup k fields = none := by
        rw [same]
        exact lookup_eq_none_of_not_mem fresh
      rw [if_pos same, if_pos same, gone]
      rfl
    · rw [if_neg same, if_neg same]

/-! ## Names -/

/-- An entry is found under the name that it has. -/
theorem isNamed_iff {e : Table} : isNamed name e = true ↔ entryName? e = some name :=
  beq_iff_eq

/-- Fields with a name of their own give it to the entry that they are written over. -/
theorem entryName?_insertAll (keyed : fields.Keyed) (named : entryName? fields = some name)
    (t : Table) : entryName? (t.insertAll fields) = some name := by
  obtain ⟨v, found, text⟩ := Option.bind_eq_some_iff.mp named
  unfold entryName?
  rw [Table.get?_insertAll keyed, found]
  exact text

/-- Some entry is found under a name just when one has it. -/
theorem any_isNamed_iff : entries.any (isNamed n) = true ↔ some n ∈ entries.map entryName? := by
  rw [List.any_eq_true, List.mem_map]
  simp only [isNamed_iff]

/-- The first entry of the name is the one that is found. -/
theorem findNamed?_cons (e : Table) (entries : List Table) :
    findNamed? (e :: entries) n = if entryName? e = some n then some e else findNamed? entries n := by
  unfold findNamed?
  by_cases here : entryName? e = some n
  · rw [if_pos here, List.find?_cons_of_pos (isNamed_iff.mpr here)]
  · rw [if_neg here, List.find?_cons_of_neg (by rw [isNamed_iff]; exact here)]

/-- An entry among the first ones is found before those behind them. -/
theorem findNamed?_append (first second : List Table) (n : String) :
    findNamed? (first ++ second) n = (findNamed? first n).or (findNamed? second n) :=
  List.find?_append

/-- No entry of a name is found just when none has it. -/
theorem findNamed?_eq_none_iff : findNamed? entries n = none ↔ some n ∉ entries.map entryName? := by
  rw [← any_isNamed_iff, List.any_eq_true]
  unfold findNamed?
  rw [List.find?_eq_none]
  simp only [not_exists, not_and]

/-- Where an entry of a name stands depends on the names alone. -/
theorem positionOf?_eq (entries : List Table) (n : String) :
    positionOf? entries n = (entries.map entryName?).findIdx? (· == some n) := by
  rw [List.findIdx?_map]
  rfl

/-! ## Writing over an entry -/

section Overwriting

variable (keeps : ∀ t, entryName? t = some name → entryName? (t.insertAll fields) = some name)

include keeps

/-- No entry changes its name when the fields keep the name. -/
theorem map_entryName?_overwriteNamed (entries : List Table) :
    (overwriteNamed name fields entries).map entryName? = entries.map entryName? := by
  induction entries with
  | nil => rfl
  | cons e entries ih =>
    unfold overwriteNamed
    split
    · rename_i here
      rw [List.map_cons, List.map_cons, keeps e (isNamed_iff.mp here), isNamed_iff.mp here]
    · rw [List.map_cons, List.map_cons, ih]

/-- Only the entry of the name has the fields afterwards, the first one that has it. -/
theorem findNamed?_overwriteNamed (entries : List Table) :
    findNamed? (overwriteNamed name fields entries) n =
      if n = name then (findNamed? entries n).map (Table.insertAll · fields)
      else findNamed? entries n := by
  induction entries with
  | nil =>
    split
    · rfl
    · rfl
  | cons e entries ih =>
    unfold overwriteNamed
    rw [findNamed?_cons e]
    by_cases here : entryName? e = some name
    · rw [if_pos (isNamed_iff.mpr here), findNamed?_cons, keeps e here, here]
      by_cases same : n = name
      · rw [if_pos (by rw [same]), if_pos same, if_pos (by rw [same])]
        rfl
      · have other : some name ≠ some n := fun h => same (Option.some.inj h).symm
        rw [if_neg other, if_neg same, if_neg other]
    · rw [if_neg (by rw [isNamed_iff]; exact here), findNamed?_cons, ih]
      by_cases same : n = name
      · rw [if_pos same, if_pos same, if_neg (by rw [same]; exact here), if_neg (by rw [same]; exact here)]
      · rw [if_neg same, if_neg same]

end Overwriting

/-- Entries at other places stay. -/
theorem getElem?_overwriteNamed (elsewhere : positionOf? entries name ≠ some i) :
    (overwriteNamed name fields entries)[i]? = entries[i]? := by
  induction entries generalizing i with
  | nil => rfl
  | cons e entries ih =>
    unfold overwriteNamed
    unfold positionOf? at elsewhere
    rw [List.findIdx?_cons] at elsewhere
    split
    · rename_i here
      rw [if_pos here] at elsewhere
      cases i with
      | zero => exact absurd rfl elsewhere
      | succ i => rfl
    · rename_i there
      rw [if_neg there] at elsewhere
      cases i with
      | zero => rfl
      | succ i =>
        refine ih fun found => elsewhere ?_
        change Option.map (· + 1) (positionOf? entries name) = _
        rw [found]
        rfl

/-! ## Sections -/

/-- Items are read as tables just when all of them are. -/
theorem mapM_table?_eq_some {items : List Value} :
    items.mapM Value.table? = some entries ↔ items = entries.map .table := by
  induction items generalizing entries with
  | nil =>
    rw [List.mapM_nil]
    constructor
    · intro h
      cases h
      rfl
    · intro h
      rw [List.map_eq_nil_iff.mp h.symm]
      rfl
  | cons item items ih =>
    rw [List.mapM_cons]
    constructor
    · intro h
      obtain ⟨e, he, h⟩ := Option.bind_eq_some_iff.mp h
      obtain ⟨rest, hrest, h⟩ := Option.bind_eq_some_iff.mp h
      cases h
      cases item with
      | table _ =>
        cases he
        rw [List.map_cons, ← ih.mp hrest]
      | text | integer | float | boolean | datetime | array => cases he
    · intro h
      cases entries with
      | nil => cases h
      | cons e entries =>
        obtain ⟨rfl, rest⟩ := List.cons.inj h
        rw [ih.mpr rest]
        rfl

/-- A section is read just when its key holds an array of tables. -/
theorem tableArray_eq_ok_some :
    tableArray doc key = .ok (some entries) ↔
      doc.get? key = some (.array (entries.map .table)) := by
  unfold tableArray
  split
  · rename_i absent
    rw [absent]
    exact ⟨nofun, nofun⟩
  · rename_i items found
    rw [found]
    split
    · rename_i listed tables
      have same := mapM_table?_eq_some.mp tables
      constructor
      · intro h
        cases h
        rw [same]
      · intro h
        cases h
        rw [mapM_table?_eq_some.mpr rfl] at tables
        cases tables
        rfl
    · rename_i mixed
      constructor
      · intro h
        cases h
      · intro h
        cases h
        rw [mapM_table?_eq_some.mpr rfl] at mixed
        cases mixed
  · rename_i v other found
    rw [found]
    constructor
    · intro h
      cases h
    · intro h
      cases h
      exact absurd rfl (other _)

/-- A section is missing just when its key is. -/
theorem tableArray_eq_ok_none : tableArray doc key = .ok none ↔ doc.get? key = none := by
  unfold tableArray
  split
  · rename_i absent
    exact ⟨fun _ => absent, fun _ => rfl⟩
  · rename_i items found
    rw [found]
    split
    · exact ⟨nofun, nofun⟩
    · exact ⟨nofun, nofun⟩
  · rename_i v other found
    rw [found]
    exact ⟨nofun, nofun⟩

/-- Whether a value is an array of tables. -/
def Value.IsTableArray (v : Value) : Prop :=
  ∃ entries : List Table, v = .array (entries.map .table)

/-- A section is refused when something else than an array of tables is under its key, and for
nothing else. -/
theorem misshapen_of_tableArray {e : SetupError} (refused : tableArray doc key = .error e) :
    e = .notTableArray key ∧ ∃ v, doc.get? key = some v ∧ ¬ v.IsTableArray := by
  have named : e = .notTableArray key := by
    unfold tableArray at refused
    split at refused
    · cases refused
    · split at refused <;> cases refused
      rfl
    · cases refused
      rfl
  refine ⟨named, ?_⟩
  cases found : doc.get? key with
  | none => cases (tableArray_eq_ok_none.mpr found).symm.trans refused
  | some v =>
    refine ⟨v, rfl, ?_⟩
    rintro ⟨entries, rfl⟩
    cases (tableArray_eq_ok_some.mpr found).symm.trans refused

/-- Only the section that is set has other entries. -/
theorem get?_setEntries (doc : Table) (key : String) (entries : List Table) (k : String) :
    (setEntries doc key entries).get? k =
      if k = key then some (.array (entries.map .table)) else doc.get? k :=
  Table.get?_insert doc key _ k

end LogTopology.Document
