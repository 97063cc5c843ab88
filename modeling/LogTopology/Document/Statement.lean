import LogTopology.Document.MarkedDate
import LogTopology.Document.Outline
import LogTopology.Document.Scalar
import LogTopology.Document.TextLiteral
/-!
# Statements and how a document is read

A document is a list of statements, one a line: headers that open a table or a new element of an
array of tables, and assignments of a value to a key. Reading first takes the characters apart into
statements and then applies them to an empty outline, in order. In the tree that this gives, the
tables that are marked as dates become dates. A text that is no document has no value.

Why a text is no document is not told, only that it is none.
-/

namespace LogTopology.Document

/-- Where a statement writes: the keys to go through and the key to write to. -/
structure KeyPath where
  parents : List String
  last : String

/-- One line of a document. -/
inductive Statement where
  | header (path : KeyPath)
  | element (path : KeyPath)
  | assign (path : KeyPath) (value : Value)

/-- How many arrays and inline tables may contain one another, and how many keys a path may have. -/
def depthLimit : Nat := 80

/-- Drops spaces and tabs. -/
def skipSpace (cs : List Char) : List Char :=
  cs.dropWhile fun c => c = ' ' || c = '\t'

/-- Drops spaces, tabs, line ends and comments; `comment` tells whether a comment is being read. -/
def skipLines? (comment : Bool) : List Char → Option (List Char)
  | [] => some []
  | '\n' :: cs => skipLines? false cs
  | '\r' :: '\n' :: cs => skipLines? false cs
  | c :: cs =>
    if comment then (if isControl c then none else skipLines? true cs)
    else if c = ' ' || c = '\t' then skipLines? false cs
    else if c = '#' then skipLines? true cs
    else some (c :: cs)

/-- Drops the rest of a line, which may hold a comment only, together with the lines after it that
hold no statement. -/
def endLine? (cs : List Char) : Option (List Char) :=
  match skipSpace cs with
  | [] => some []
  | c :: rest =>
    if c = '#' || c = '\n' || c = '\r' then skipLines? false (c :: rest) else none

/-- A character of a key without quotes. -/
def isBareChar (c : Char) : Bool :=
  c.isAlphanum || c = '_' || c = '-'

/-- Reads one key. -/
def readKey? (cs : List Char) : Option (String × List Char) :=
  match cs.takeWhile isBareChar with
  | [] => readLineText? cs
  | bare => some (String.ofList bare, cs.dropWhile isBareChar)

/-- Reads a path of at most `room` keys with points between them. -/
def readKeys? : Nat → List Char → Option (KeyPath × List Char)
  | 0, _ => none
  | room + 1, cs => do
    let (key, cs) ← readKey? (skipSpace cs)
    match skipSpace cs with
    | '.' :: cs =>
      let (path, cs) ← readKeys? room cs
      return (⟨key :: path.parents, path.last⟩, cs)
    | cs => return (⟨[], key⟩, cs)

/-- Reads a path of keys. -/
def readPath? (cs : List Char) : Option (KeyPath × List Char) :=
  readKeys? depthLimit cs

/-- Reads a text or a plain value. -/
def readLeaf? (cs : List Char) : Option (Value × List Char) :=
  match cs with
  | '"' :: _ | '\'' :: _ => (readText? cs).map fun r => (.text r.1, r.2)
  | cs =>
    let (taken, rest) := splitScalar cs
    (readScalar? taken).map fun v => (v, rest)

/-- Reads an assignment, given how to read a value. -/
def readAssignment? (readItem? : List Char → Option (Value × List Char)) (cs : List Char) :
    Option (KeyPath × Value × List Char) := do
  let (path, cs) ← readPath? cs
  let (v, cs) ← readItem? (skipSpace (← expect? '=' cs))
  return (path, v, cs)

/-- Reads at most `room` items of an array and its closing bracket; a comma may follow the last
item. -/
def readItems? (readItem? : List Char → Option (Value × List Char)) :
    Nat → List Char → Option (List Value × List Char)
  | 0, _ => none
  | room + 1, cs => do
    match ← skipLines? false cs with
    | ']' :: cs => return ([], cs)
    | cs =>
      let (v, cs) ← readItem? cs
      match ← skipLines? false cs with
      | ',' :: cs =>
        let (vs, cs) ← readItems? readItem? room cs
        return (v :: vs, cs)
      | ']' :: cs => return ([v], cs)
      | _ => none

/-- Reads at most `room` entries of an inline table and its closing brace. -/
def readFields? (readItem? : List Char → Option (Value × List Char)) :
    Nat → Outline → List Char → Option (Outline × List Char)
  | 0, _, _ => none
  | room + 1, o, cs => do
    let (path, v, cs) ← readAssignment? readItem? cs
    let o ← o.assign? v path.last path.parents
    match skipSpace cs with
    | ',' :: cs => readFields? readItem? room o cs
    | '\x7d' :: cs => return (o, cs)
    | _ => none

/-- Reads an inline table from behind its opening brace. -/
def readInline? (readItem? : List Char → Option (Value × List Char)) (cs : List Char) :
    Option (Value × List Char) :=
  match skipSpace cs with
  | '\x7d' :: cs => some (.table [], cs)
  | cs => (readFields? readItem? cs.length [] cs).map fun r => (.table (Outline.toEntries r.1), r.2)

/-- Reads a value that holds at most `room` arrays and inline tables one in another. -/
def readValue? : Nat → List Char → Option (Value × List Char)
  | 0, cs => readLeaf? cs
  | room + 1, cs =>
    match cs with
    | '[' :: cs =>
      (readItems? (readValue? room) (cs.length + 1) cs).map fun r => (.array r.1, r.2)
    | '\x7b' :: cs => readInline? (readValue? room) cs
    | cs => readLeaf? cs

/-- Reads one statement, without the end of its line. -/
def readStatement? (cs : List Char) : Option (Statement × List Char) :=
  match cs with
  | '[' :: '[' :: cs => do
    let (path, cs) ← readPath? cs
    return (.element path, ← expect? ']' (← expect? ']' cs))
  | '[' :: cs => do
    let (path, cs) ← readPath? cs
    return (.header path, ← expect? ']' cs)
  | cs => (readAssignment? (readValue? depthLimit) cs).map fun r => (.assign r.1 r.2.1, r.2.2)

/-- Reads at most `room` statements up to the end. -/
def readStatements? : Nat → List Char → Option (List Statement)
  | _, [] => some []
  | 0, _ :: _ => none
  | room + 1, cs => do
    let (s, cs) ← readStatement? cs
    return s :: (← readStatements? room (← endLine? cs))

/-- A document under construction and the path of the table that assignments write to. -/
structure Draft where
  outline : Outline
  current : List String

/-- Applies a statement to a draft. -/
def Draft.apply? (d : Draft) : Statement → Option Draft
  | .header path =>
    (d.outline.within? (Outline.openTable? path.last) path.parents).map fun o =>
      ⟨o, path.parents ++ [path.last]⟩
  | .element path =>
    (d.outline.within? (Outline.openElement? path.last) path.parents).map fun o =>
      ⟨o, path.parents ++ [path.last]⟩
  | .assign path v =>
    (d.outline.within? (Outline.assign? v path.last path.parents) d.current).map fun o =>
      ⟨o, d.current⟩

/-- Drops the mark that may stand at the start of a text. -/
def dropMark : List Char → List Char
  | '\ufeff' :: cs => cs
  | cs => cs

/-- Reads a document, or nothing when the text is none. -/
def read? (text : String) : Option Table := do
  let cs ← skipLines? false (dropMark text.toList)
  let statements ← readStatements? cs.length cs
  let draft ← statements.foldlM Draft.apply? ⟨[], []⟩
  Value.resolveEntries? (Outline.toEntries draft.outline)

end LogTopology.Document
