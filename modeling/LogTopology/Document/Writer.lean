import LogTopology.Document.Value
/-!
# How a document is written

The text of a document: first the plain entries, a line each, then a section for every table and
for every element of an array of tables, with an empty line before it. Lines and sections keep the
order of the entries. The sections of a table's entries follow its own, and a table without plain
entries of its own needs no header when it has such sections.

A text is written between the quotes that need the fewest escapes.
-/

namespace LogTopology.Document

/-- The quotes that a text stands between. -/
inductive Quotes where
  | double
  | single
  | doubleLines
  | singleLines
  deriving DecidableEq, Repr

/-- The length of the longest run of a character. -/
def longestRun (c : Char) (cs : List Char) : Nat :=
  (cs.foldl (fun (longest, run) d =>
    let run := if d = c then run + 1 else 0
    (max longest run, run)) (0, 0)).1

/-- A character that only an escape can stand for. -/
def needsEscape (c : Char) : Bool :=
  (c.toNat < 0x20 && c ≠ '\t' && c ≠ '\n') || c.toNat = 0x7F

/-- The quotes for a text: the first of double, single, triple double and triple single ones that
need no escape. -/
def Quotes.forText (cs : List Char) : Quotes :=
  let controls := cs.any needsEscape
  if !controls && !cs.contains '\\' && !cs.contains '"' && !cs.contains '\n' then double
  else if !controls && !cs.contains '\'' && !cs.contains '\n' then single
  else if !controls && !cs.contains '\\' && longestRun '"' cs ≤ 2 then doubleLines
  else if !controls && longestRun '\'' cs ≤ 2 then singleLines
  else if cs.contains '\n' then doubleLines
  else double

/-- A number as four hexadecimal digits. -/
def fourDigits (n : Nat) : List Char :=
  let ds := (Nat.toDigits 16 n).map Char.toUpper
  List.replicate (4 - ds.length) '0' ++ ds

/-- The escape for a character, if it needs one in double quotes. -/
def escape? (c : Char) : Option (List Char) :=
  if c = '\x08' then some ['\\', 'b']
  else if c = '\t' then some ['\\', 't']
  else if c = '\n' then some ['\\', 'n']
  else if c = '\x0c' then some ['\\', 'f']
  else if c = '\r' then some ['\\', 'r']
  else if c = '\\' then some ['\\', '\\']
  else if needsEscape c then some (['\\', 'u'] ++ fourDigits c.toNat)
  else none

/-- Writes the characters of a text in double quotes. With `lines`, line ends stand for themselves
and so do two quotes in a row; `run` counts the quotes just written. -/
def escapeText (lines : Bool) (run : Nat) : List Char → List Char
  | [] => []
  | c :: cs =>
    if c = '"' then
      if lines && run < 2 then c :: escapeText lines (run + 1) cs
      else '\\' :: c :: escapeText lines 0 cs
    else if lines && c = '\n' then c :: escapeText lines 0 cs
    else
      match escape? c with
      | some es => es ++ escapeText lines 0 cs
      | none => c :: escapeText lines 0 cs

/-- Writes a text between the given quotes. A text of several lines starts on a line of its own. -/
def Quotes.write (q : Quotes) (cs : List Char) : List Char :=
  let start := if cs.contains '\n' then ['\n'] else []
  match q with
  | double => '"' :: escapeText false 0 cs ++ ['"']
  | single => '\'' :: cs ++ ['\'']
  | doubleLines => ['"', '"', '"'] ++ start ++ escapeText true 0 cs ++ ['"', '"', '"']
  | singleLines => ['\'', '\'', '\''] ++ start ++ cs ++ ['\'', '\'', '\'']

/-- Writes a text. -/
def writeText (s : String) : String :=
  String.ofList ((Quotes.forText s.toList).write s.toList)

/-- A character that a key may hold without quotes. -/
def standsBare (c : Char) : Bool :=
  c.isAlphanum || c = '_' || c = '-'

/-- Writes a key: bare if it can be, and else between double quotes unless single ones save
escapes. -/
def writeKey (key : String) : String :=
  let cs := key.toList
  let controls := cs.any fun c => needsEscape c || c = '\n'
  String.ofList <|
    if cs ≠ [] && cs.all standsBare then cs
    else if !controls && !cs.contains '\\' && !cs.contains '"' then Quotes.double.write cs
    else if !controls && !cs.contains '\'' then Quotes.single.write cs
    else Quotes.double.write cs

/-- A value that is written in sections and not on a line. -/
def hasSections : Value → Bool
  | .table _ => true
  | .array items => !items.isEmpty && items.all Value.isTable
  | _ => false

mutual

/-- Writes a value on one line. -/
def writeInline : Value → String
  | .text s => writeText s
  | .integer n => toString n
  | .float x => x.toDocument
  | .boolean b => if b then "true" else "false"
  | .datetime d => d.toText
  | .array items => "[" ++ String.intercalate ", " (writeItems items) ++ "]"
  | .table entries =>
    match writeFields entries with
    | [] => "\x7b\x7d"
    | fields => "\x7b " ++ String.intercalate ", " fields ++ " \x7d"

/-- Writes the items of an array. -/
def writeItems : List Value → List String
  | [] => []
  | v :: vs => writeInline v :: writeItems vs

/-- Writes the entries of a table on one line each. -/
def writeFields : List (String × Value) → List String
  | [] => []
  | (key, v) :: entries => (writeKey key ++ " = " ++ writeInline v) :: writeFields entries

end

/-- The lines of the entries that have no sections. -/
def plainLines (entries : Table) : List String :=
  writeFields (entries.filter fun e => !hasSections e.2)

/-- A section: the header, if it has one, and the lines under it. -/
def joinSection (header : Option String) (lines : List String) : String :=
  header.elim "" (· ++ "\n") ++ String.join (lines.map (· ++ "\n"))

/-- The path of an entry, given the path of its table. -/
def pathTo (path key : String) : String :=
  if path = "" then writeKey key else path ++ "." ++ writeKey key

mutual

/-- The sections of a value under the given path. -/
def valueSections (path : String) : Value → List String
  | .table entries =>
    let inner := entrySections path entries
    let lines := plainLines entries
    if lines.isEmpty && !inner.isEmpty then inner
    else joinSection (some ("[" ++ path ++ "]")) lines :: inner
  | .array items => if items.all Value.isTable then elementSections path items else []
  | _ => []

/-- The sections of the elements of an array of tables. -/
def elementSections (path : String) : List Value → List String
  | [] => []
  | .table entries :: items =>
    joinSection (some ("[[" ++ path ++ "]]")) (plainLines entries) ::
      entrySections path entries ++ elementSections path items
  | _ :: items => elementSections path items

/-- The sections of the entries of a table. -/
def entrySections (path : String) : List (String × Value) → List String
  | [] => []
  | (key, v) :: entries => valueSections (pathTo path key) v ++ entrySections path entries

end

/-- Writes a document. -/
def write (t : Table) : String :=
  let lines := plainLines t
  String.intercalate "\n"
    ((if lines.isEmpty then [] else [joinSection none lines]) ++ entrySections "" t)

end LogTopology.Document
