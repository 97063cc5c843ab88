import LogTopology.Bridge.Demand
import LogTopology.Bridge.Verbosity
import LogTopology.Text.Blank
import LogTopology.Text.Utf8
/-!
# Directives

A directive sets a verbosity for what it concerns: targets that start with a given text, a span of
a given name, and events or spans that declare a given field. It is written as target, span and
field between brackets, and verbosity, of which most may be left out.

The marks between the parts are looked for in the text without the blanks around it, and the parts
are cut at the same places out of the text with its blanks. So blanks in front shift all parts, and
blanks at the end belong to the last one.
-/

namespace LogTopology.Bridge

/-- A directive: what it concerns and the verbosity that it sets. -/
structure Directive where
  target : Option (List Char)
  span : Option (List Char)
  field : Option Demand
  verbosity : Verbosity
  deriving DecidableEq, Repr

/-- What is left to read of a directive: the bytes among which marks are looked for, and the bytes
out of which parts are cut. -/
structure Tape where
  looked : Text.Bytes
  cut : Text.Bytes

namespace Tape

/-- A text before it is read. -/
def ofText (cs : List Char) : Tape :=
  ⟨Text.encode (Text.trim cs), Text.encode cs⟩

/-- Goes on behind some bytes. -/
def drop (t : Tape) (count : Nat) : Tape :=
  ⟨t.looked.drop count, t.cut.drop count⟩

/-- Whether a byte is one of the given marks. -/
def isMark (marks : List Char) (b : UInt8) : Bool :=
  marks.any fun c => UInt8.ofNat c.toNat = b

/-- Whether a mark comes next. -/
def startsWith (t : Tape) (c : Char) : Bool :=
  t.looked.head?.any (isMark [c])

/-- Cuts out the part before the first of some marks, or all if there is none. -/
def split? (t : Tape) (marks : List Char) : Option (List Char × Tape) :=
  let count := (t.looked.takeWhile (!isMark marks ·)).length
  (Text.decode? (t.cut.take count)).map fun part => (part.toList, t.drop count)

end Tape

namespace Directive

/-- Reads the verbosity, which goes to the end of the text. -/
def ofLevel? (d : Directive) (t : Tape) : Option Directive := do
  let v ← readLevel? (← Text.decode? t.cut).toList
  return { d with verbosity := v }

/-- Reads what stands behind a closing bracket. -/
def ofTail? (d : Directive) (t : Tape) : Option Directive :=
  if t.looked.isEmpty then some d
  else if t.startsWith '=' then d.ofLevel? (t.drop 1)
  else none

/-- Reads what stands behind an opening brace: a demand, and the end of brace and bracket. -/
def ofBrace? (d : Directive) (t : Tape) : Option Directive := do
  let (part, t) ← t.split? ['\x7d']
  guard (part ≠ [] && t.startsWith '\x7d' && (t.drop 1).startsWith ']')
  let demand ← Demand.read? part
  ofTail? { d with field := some demand } (t.drop 2)

/-- Reads what stands behind an opening bracket: the name of a span, a demand, or both. -/
def ofBracket? (d : Directive) (t : Tape) : Option Directive := do
  let (part, t) ← t.split? [']', '\x7b']
  if t.startsWith ']' then ofTail? { d with span := some part } (t.drop 1)
  else if t.startsWith '\x7b' then
    ofBrace? { d with span := if part = [] then none else some part } (t.drop 1)
  else none

/-- Reads a directive that is a verbosity or a target alone. -/
def ofWord (cs : List Char) : Directive :=
  match readVerbosity? cs with
  | some v => ⟨none, none, none, v⟩
  | none => ⟨some cs, none, none, some .trace⟩

/-- Reads a directive. -/
def read? (cs : List Char) : Option Directive := do
  let t := Tape.ofText cs
  let c ← (Text.trim cs).head?
  if c = '[' then ofBracket? ⟨none, none, none, some .trace⟩ (t.drop 1)
  else
    guard (Text.isAlphanumeric c || c ∈ ['-', ':', '_'])
    if t.looked.any (Tape.isMark ['=', '[']) then
      let (target, t) ← t.split? ['=', '[']
      let d : Directive := ⟨some target, none, none, some .trace⟩
      if t.startsWith '=' then d.ofLevel? (t.drop 1) else d.ofBracket? (t.drop 1)
    else return ofWord cs

/-- Whether a directive is about spans, or wants a field to have a value. Only in a span can such a
directive come to bear. -/
def isBound (d : Directive) : Bool :=
  d.span.isSome || d.field.any fun f => f.value.isSome

/-- Whether a directive stands with those that may concern spans. -/
def isDynamic (d : Directive) : Bool :=
  d.span.isSome || d.field.isSome

/-- Whether a directive concerns an event. The event has to declare the field, with or without a
value. -/
def concerns (d : Directive) (e : Event) : Bool :=
  (d.target.elim true fun t => t.isPrefixOf e.target.toList) &&
    d.field.elim true fun f => e.declared.contains (String.ofList f.name)

/-- The text of a directive. -/
def text (d : Directive) : String :=
  let field := d.field.elim "" fun f => "\x7b" ++ f.text ++ "\x7d"
  let scope := if d.isDynamic then "[" ++ String.ofList (d.span.getD []) ++ field ++ "]" else ""
  let equals := if d.target.isNone && !d.isDynamic then "" else "="
  String.ofList (d.target.getD []) ++ scope ++ equals ++ verbosityName d.verbosity

/-- What the order of directives goes by: the length of the target, whether there is a span and a
field, and then the parts themselves. Directives about the same have the same rank. -/
def rank (d : Directive) : List (List Nat) :=
  let length := d.target.elim 0 fun t => (Text.encode t).length + 1
  [[length, if d.span.isSome then 1 else 0, if d.field.isSome then 1 else 0],
    (d.target.getD []).map Char.toNat, (d.span.getD []).map Char.toNat] ++
    d.field.elim [] Demand.rank

/-- Adds a directive to a list that has the most specific ones first; one about the same goes. -/
def insert (d : Directive) : List Directive → List Directive
  | [] => [d]
  | e :: es =>
    if e.rank = d.rank then d :: es
    else if e.rank < d.rank then d :: e :: es
    else e :: insert d es

end Directive

end LogTopology.Bridge
