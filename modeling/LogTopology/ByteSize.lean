import LogTopology.Decimal.Numeral
import LogTopology.Text.Blank
/-!
# Byte counts

A byte count of 64 bits and its text: a decimal number with an optional unit (`K`, `M`, `G`, `T`,
powers of 1024) and an optional `B`. Letters are taken in either case and blanks may stand before,
between and after the parts. What a byte count is written as reads back to the same count.
-/

namespace LogTopology

/-- A number of bytes that fits into 64 bits. -/
structure ByteSize where
  bytes : Nat
  fits : bytes < UInt64.size
  deriving DecidableEq, Repr

namespace ByteSize

/-- Why a text is no byte count. -/
inductive Fault where
  /-- The text is not a number with a unit. -/
  | malformed (text : String)
  /-- The number alone does not fit into 64 bits. -/
  | numberTooLarge (text : String)
  /-- The unit looks like one without being one. -/
  | unknownUnit (unit : Char)
  /-- The number of bytes does not fit into 64 bits. -/
  | overflow (text : String)
  deriving DecidableEq, Repr

/-- The message of a fault. -/
def Fault.message : Fault → String
  | malformed s => s!"Invalid string '{s}' for max size parsing"
  | numberTooLarge s =>
    s!"Unexpected error for max size parsing on string '{s}': " ++
      "number too large to fit in target type"
  | unknownUnit c => s!"Unexpected suffix '{c}' for max size parsing"
  | overflow s => s!"Max size '{s}' overflows 64-bit byte count"

/-- A unit letter in either case. The kelvin sign counts as a letter here, since it is a `K` when
case is ignored, and is refused by `exponent?`. -/
def isUnitLetter (c : Char) : Bool :=
  c ∈ ['T', 'G', 'M', 'K', 't', 'g', 'm', 'k', '\u212a']

/-- The power of 1024 that a unit letter stands for. -/
def exponent? (c : Char) : Option Nat :=
  if c = 'K' || c = 'k' then some 1
  else if c = 'M' || c = 'm' then some 2
  else if c = 'G' || c = 'g' then some 3
  else if c = 'T' || c = 't' then some 4
  else none

/-- Splits off the leading unit letter, if there is one. -/
def splitUnit : List Char → Option Char × List Char
  | c :: cs => if isUnitLetter c then (some c, cs) else (none, c :: cs)
  | [] => (none, [])

/-- Drops a leading `B` of either case, if there is one. -/
def dropByteMark : List Char → List Char
  | c :: cs => if c = 'B' || c = 'b' then cs else c :: cs
  | [] => []

/-- The digits and the unit of a size text, or nothing when the text has another shape. -/
def split? (cs : List Char) : Option (List Char × Option Char) :=
  let start := Text.trimStart cs
  let digits := start.takeWhile Char.isDigit
  let unit := splitUnit (Text.trimStart (start.dropWhile Char.isDigit))
  if digits ≠ [] && (Text.trimStart (dropByteMark unit.2)).isEmpty then some (digits, unit.1)
  else none

/-- Reads a size text. -/
def parse (s : String) : Except Fault ByteSize :=
  match split? s.toList with
  | none => .error (.malformed s)
  | some (digits, unit) =>
    let n := Decimal.valueOf digits
    if UInt64.size ≤ n then .error (.numberTooLarge s)
    else
      match unit.elim (some 0) exponent? with
      | none => .error (.unknownUnit (unit.getD ' '))
      | some e =>
        let bytes := n * Nat.pow 1024 e
        if h : bytes < UInt64.size then .ok ⟨bytes, h⟩ else .error (.overflow s)

/-- The units that a byte count may be written in, the largest first. -/
def units : List (Nat × Char) :=
  [(Nat.pow 1024 4, 'T'), (Nat.pow 1024 3, 'G'), (Nat.pow 1024 2, 'M'), (1024, 'K')]

/-- Writes a byte count in the largest unit that divides it, and in bytes when none does. -/
def toText (b : ByteSize) : String :=
  let unit := if b.bytes = 0 then (1, 'B') else (units.find? fun u => b.bytes % u.1 = 0).getD (1, 'B')
  toString (b.bytes / unit.1) ++ String.singleton unit.2

end ByteSize

end LogTopology
