import LogTopology.Document.Value
/-!
# Outlines

A document under construction. Beside its value, every table remembers how it came to be, because
that decides who may still write to it: a table with a header of its own takes no dotted keys, a
table made by dotted keys takes no header, and a table that a longer header only passed through
may get its own header later. Whatever passes through an array of tables, a header or a dotted key,
goes on in its newest element.
-/

namespace LogTopology.Document

/-- How a table came to be. -/
inductive Origin where
  /-- By a header of its own. -/
  | header
  /-- By a longer header that passes through it. -/
  | implied
  /-- By a dotted key. -/
  | dotted
  deriving DecidableEq, Repr

/-- A value under construction. -/
inductive Node where
  | value (v : Value)
  | table (origin : Origin) (entries : List (String × Node))
  /-- Tables that are the elements of one array, the newest first. -/
  | tables (elements : List (List (String × Node)))

/-- A table under construction: its entries in order. -/
abbrev Outline := List (String × Node)

namespace Outline

/-- Edits what is under a key: in its place if there is something, and at the end otherwise. -/
def alter? (key : String) (edit : Option Node → Option Node) : Outline → Option Outline
  | [] => (edit none).map fun n => [(key, n)]
  | e :: o =>
    if e.1 = key then (edit (some e.2)).map fun n => (key, n) :: o
    else (alter? key edit o).map (e :: ·)

/-- Edits the table that a path of headers leads to, making the tables that are missing. In an
array of tables the path goes through the newest element. -/
def within? (edit : Outline → Option Outline) : List String → Outline → Option Outline
  | [], o => edit o
  | key :: path, o =>
    o.alter? key fun
      | none => (within? edit path []).map (.table .implied)
      | some (.table origin entries) => (within? edit path entries).map (.table origin)
      | some (.tables (newest :: older)) =>
        (within? edit path newest).map fun t => .tables (t :: older)
      | some _ => none

/-- Opens a table for its header. A table that was only passed through so far moves to the end. -/
def openTable? (key : String) (o : Outline) : Option Outline :=
  match List.lookup key o with
  | none => some (o ++ [(key, .table .header [])])
  | some (.table .implied entries) =>
    some ((o.filter fun e => e.1 ≠ key) ++ [(key, .table .header entries)])
  | some _ => none

/-- Opens a new element of an array of tables. -/
def openElement? (key : String) (o : Outline) : Option Outline :=
  o.alter? key fun
    | none => some (.tables [[]])
    | some (.tables elements) => some (.tables ([] :: elements))
    | some _ => none

/-- Writes a value under a dotted key. No key is written twice. The tables that the key passes
through are made by dotted keys too, or by a longer header, or are the newest of an array; the last
of them, which holds the value, is made by dotted keys. -/
def assign? (v : Value) (last : String) : List String → Outline → Option Outline
  | [], o => o.alter? last fun n => if n.isNone then some (.value v) else none
  | key :: path, o =>
    o.alter? key fun
      | none => (assign? v last path []).map (.table .dotted)
      | some (.table .dotted entries) => (assign? v last path entries).map (.table .dotted)
      | some (.table .implied entries) =>
        if path = [] then none else (assign? v last path entries).map (.table .implied)
      | some (.tables (newest :: older)) =>
        if path = [] then none
        else (assign? v last path newest).map fun t => .tables (t :: older)
      | some _ => none

end Outline

mutual

/-- The value that a node stands for. -/
def Node.toValue : Node → Value
  | .value v => v
  | .table _ entries => .table (Outline.toEntries entries)
  | .tables elements => .array (Outline.toItems elements [])

/-- The entries that a table under construction stands for. -/
def Outline.toEntries : List (String × Node) → Table
  | [] => []
  | (key, n) :: entries => (key, n.toValue) :: Outline.toEntries entries

/-- The items that the elements stand for, put before those in `items` in turn. -/
def Outline.toItems : List (List (String × Node)) → List Value → List Value
  | [], items => items
  | t :: elements, items => Outline.toItems elements (.table (Outline.toEntries t) :: items)

end

end LogTopology.Document
