import LogTopology.Document.Field
/-!
# Sections of a document

A section is an array of tables, its entries, or a single table. Entries go by the text under their
key `name`; an entry without such a text has no name and is found by none.
-/

namespace LogTopology.Document

/-- The entries of a section, or nothing when the document does not have it. -/
def tableArray (doc : Table) (key : String) : Setup (Option (List Table)) :=
  match doc.get? key with
  | none => .ok none
  | some (.array items) =>
    match items.mapM Value.table? with
    | some entries => .ok (some entries)
    | none => .error (.notTableArray key)
  | some _ => .error (.notTableArray key)

/-- The table that is a section, or nothing when the document does not have it. -/
def subTable (doc : Table) (key : String) : Setup (Option Table) :=
  match doc.get? key with
  | none => .ok none
  | some (.table entries) => .ok (some entries)
  | some _ => .error (.notTable key)

/-- Writes the entries of a section. -/
def setEntries (doc : Table) (key : String) (entries : List Table) : Table :=
  doc.insert key (.array (entries.map .table))

/-- The name of an entry. -/
def entryName? (entry : Table) : Option String :=
  (entry.get? "name").bind Value.text?

/-- Whether an entry has the given name. -/
def isNamed (name : String) (entry : Table) : Bool :=
  entryName? entry == some name

/-- The first entry with the given name. -/
def findNamed? (entries : List Table) (name : String) : Option Table :=
  entries.find? (isNamed name)

/-- The position of the first entry with the given name. -/
def positionOf? (entries : List Table) (name : String) : Option Nat :=
  entries.findIdx? (isNamed name)

/-- Writes fields over the first entry with the given name. -/
def overwriteNamed (name : String) (fields : Table) : List Table → List Table
  | [] => []
  | e :: entries =>
    if isNamed name e then Table.insertAll e fields :: entries
    else e :: overwriteNamed name fields entries

end LogTopology.Document
