import LogTopology.Document.Value
/-!
# Dates written as tables

A date has a second spelling: a table whose first key is `dateMark` stands for the date that the
text under this key is, whatever else the table holds. A table that is marked so without being a
date has no meaning, and neither has a tree with such a table in it. Only the first key counts; a
mark further back is a key like any other.
-/

namespace LogTopology.Document

/-- The first key of a table that stands for a date. -/
def dateMark : String := "$__toml_private_datetime"

/-- Whether a table stands for a date. -/
def Table.isMarkedDate (t : Table) : Bool :=
  t.head?.any fun e => e.1 = dateMark

/-- The date that a marked table stands for. -/
def Table.markedDate? (t : Table) : Option Datetime := do
  let (_, v) ← t.head?
  Datetime.ofChars? (← v.text?).toList

namespace Value

mutual

/-- A value with the dates that its tables stand for. -/
def resolve? : Value → Option Value
  | array items => (resolveItems? items).map array
  | table entries =>
    if Table.isMarkedDate entries then (Table.markedDate? entries).map datetime
    else (resolveEntries? entries).map table
  | v => some v

/-- The items of an array with the dates that their tables stand for. -/
def resolveItems? : List Value → Option (List Value)
  | [] => some []
  | v :: vs => do return (← resolve? v) :: (← resolveItems? vs)

/-- The entries of a table that is none of the marked ones, with the dates that their tables stand
for. -/
def resolveEntries? : List (String × Value) → Option (List (String × Value))
  | [] => some []
  | (key, v) :: entries => do return (key, ← resolve? v) :: (← resolveEntries? entries)

end

end Value

end LogTopology.Document
