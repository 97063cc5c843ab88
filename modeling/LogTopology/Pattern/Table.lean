import LogTopology.Document.Section
import LogTopology.Plan
/-!
# Named patterns

The patterns that a document declares, by name. A name that is declared again keeps its place and
takes the new value. Names are looked up in an index, which is kept beside the entries and tells
where each name stands.
-/

namespace LogTopology

/-- Named patterns in the order of their first declarations. -/
structure PatternTable where
  entries : List (String × String)
  /-- Where each name stands among the entries. -/
  index : List (String × Nat)
  /-- A name has a place in the index exactly when the entry there is the one of the name. -/
  indexed : ∀ name place,
    index.lookup name = some place ↔ entries[place]?.map Prod.fst = some name
  deriving DecidableEq, Repr

namespace PatternTable

/-- The table without patterns. -/
def empty : PatternTable := ⟨[], [], fun _ _ => by simp⟩

/-- The value of a pattern. -/
def get? (t : PatternTable) (name : String) : Option String := do
  let place ← t.index.lookup name
  let entry ← t.entries[place]?
  return entry.2

/-- The number of names. -/
def size (t : PatternTable) : Nat :=
  t.entries.length

/-- Writes a value over the one of the entry at a place. -/
def overwrite (t : PatternTable) (place : Nat) (value : String) : PatternTable where
  entries := t.entries.modify place fun e => (e.1, value)
  index := t.index
  indexed name i := by
    rw [t.indexed, List.getElem?_modify]
    by_cases here : place = i <;> cases t.entries[i]? <;> simp [here]

/-- Adds a pattern of a new name behind the others. -/
def append (t : PatternTable) (name value : String) (new : t.index.lookup name = none) :
    PatternTable where
  entries := t.entries ++ [(name, value)]
  index := (name, t.entries.length) :: t.index
  indexed n i := by
    have unnamed : t.entries[i]?.map Prod.fst ≠ some name := by
      rw [Ne, ← t.indexed, new]
      exact nofun
    rw [List.lookup_cons]
    by_cases last : i = t.entries.length
    · rw [last, List.getElem?_concat_length]
      by_cases same : n = name
      · simp [same]
      · simp [beq_eq_false_iff_ne.mpr same, t.indexed, Ne.symm same]
    · have before : (t.entries ++ [(name, value)])[i]? = t.entries[i]? := by grind
      rw [before]
      by_cases same : n = name
      · rw [same, beq_self_eq_true]
        exact iff_of_false (fun h => last (Option.some.inj h).symm) unnamed
      · rw [beq_eq_false_iff_ne.mpr same, t.indexed]

/-- Declares a pattern: the value is written over the one that the name has. -/
def insert (t : PatternTable) (name value : String) : PatternTable :=
  match found : t.index.lookup name with
  | some place => t.overwrite place value
  | none => t.append name value found

variable {S P L : Type}

/-- Declares the patterns of the given entries. -/
def declare (t : PatternTable) : List Document.Table → Plan S P L PatternTable
  | [] => return t
  | entry :: entries => do
    let name ← Plan.ofSetup (Document.required .string entry "name" (.nameless "patterns"))
    let value ← Plan.ofSetup (Document.required .string entry "value" (.valuelessPattern name))
    if (t.get? name).isSome then
      Plan.report (.about .patterns .warn
        "pattern declared more than once, last value wins" [("pattern", .shown name)])
    (t.insert name value).declare entries

/-- The patterns of a document; without the section there are none. -/
def ofDocument (doc : Document.Table) : Plan S P L PatternTable := do
  match ← Plan.ofSetup (Document.tableArray doc "pattern") with
  | none => return empty
  | some entries =>
    let t ← empty.declare entries
    Plan.report (.about .patterns .debug "patterns loaded" [("count", .unsigned t.size)])
    return t

end PatternTable

end LogTopology
