import LogTopology.Decimal.Notation
import LogTopology.Document.Datetime
import LogTopology.NamedList
/-!
# Document values

A document is a tree: tables of named values, arrays, and plain values at the leaves. The entries
of a table keep the order in which their keys first came; writing to a key that is there already
keeps its place.
-/

namespace LogTopology.Document

/-- A value of a document. -/
inductive Value where
  | text (s : String)
  | integer (n : Int)
  | float (x : Decimal.Binary64)
  | boolean (b : Bool)
  | datetime (d : Datetime)
  | array (items : List Value)
  | table (entries : List (String × Value))
  deriving Repr, Inhabited

/-- A table: its entries in order, one for a key. -/
abbrev Table := List (String × Value)

namespace Table

/-- The value under a key. -/
def get? (t : Table) (key : String) : Option Value :=
  List.lookup key t

/-- Writes a value under a key, in the key's place if it has one and at the end otherwise. -/
def insert (t : Table) (key : String) (v : Value) : Table :=
  writeNamed key v t

/-- Removes a key. -/
def erase (t : Table) (key : String) : Table :=
  t.filter fun e => e.1 ≠ key

/-- Writes all entries of a table into another, in order. -/
def insertAll (t entries : Table) : Table :=
  entries.foldl (fun t e => t.insert e.1 e.2) t

end Table

namespace Value

/-- The text of a value that is one. -/
def text? : Value → Option String
  | text s => some s
  | _ => none

/-- The entries of a value that is a table. -/
def table? : Value → Option Table
  | table entries => some entries
  | _ => none

/-- Whether a value is a table. -/
def isTable (v : Value) : Bool :=
  v.table?.isSome

mutual

/-- Whether two values mean the same: tables are compared without regard to the order of their
keys, and floats by value. -/
def same : Value → Value → Bool
  | text a, text b => a == b
  | integer a, integer b => a == b
  | float a, float b => a.sameValue b
  | boolean a, boolean b => a == b
  | datetime a, datetime b => a == b
  | array as, array bs => sameItems as bs
  | table as, table bs => as.length == bs.length && sameEntries as bs
  | _, _ => false

/-- Whether two arrays have the same items. -/
def sameItems : List Value → List Value → Bool
  | [], [] => true
  | a :: as, b :: bs => same a b && sameItems as bs
  | _, _ => false

/-- Whether every entry has its like in the table `bs`. -/
def sameEntries : List (String × Value) → List (String × Value) → Bool
  | [], _ => true
  | (k, a) :: as, bs =>
    (match bs.lookup k with
      | some b => same a b
      | none => false) && sameEntries as bs

end

end Value

end LogTopology.Document
