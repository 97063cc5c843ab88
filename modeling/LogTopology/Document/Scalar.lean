import LogTopology.Document.Value
/-!
# Plain values in documents

Booleans, integers, floats and dates as they stand in a document. Digits may be grouped by single
underscores between them; a decimal has no superfluous zero in front; an integer has to fit into 64
bits and a float must not be too large for its format.
-/

namespace LogTopology.Document

/-- The digits of a number without the underscores that group them, or nothing when an underscore
does not stand between two digits or a character is no digit. -/
def ungroup? (isDigit : Char → Bool) (cs : List Char) : Option (List Char) :=
  let groups := cs.splitOn '_'
  if groups.all fun g => g ≠ [] && g.all isDigit then some groups.flatten else none

/-- The value of one digit in any base up to sixteen. -/
def digitValue (c : Char) : Nat :=
  if c.isDigit then c.toNat - '0'.toNat
  else if 'a' ≤ c && c ≤ 'f' then c.toNat - 'a'.toNat + 10
  else c.toNat - 'A'.toNat + 10

/-- Whether a character is a digit of the given base. -/
def isDigitOf (base : Nat) (c : Char) : Bool :=
  (c.isDigit || ('a' ≤ c && c ≤ 'f') || ('A' ≤ c && c ≤ 'F')) && digitValue c < base

/-- The number that digits of the given base denote. -/
def valueOfDigits (base : Nat) (ds : List Char) : Nat :=
  ds.foldl (fun n c => base * n + digitValue c) 0

/-- Splits off a sign and tells whether it is a minus. -/
def splitSign : List Char → Bool × List Char
  | '-' :: cs => (true, cs)
  | '+' :: cs => (false, cs)
  | cs => (false, cs)

/-- The digits of a decimal without superfluous zeros in front. -/
def decimalDigits? (cs : List Char) : Option (List Char) :=
  (ungroup? Char.isDigit cs).filter fun ds => ds.length = 1 || ds.head? ≠ some '0'

/-- An integer that fits into 64 bits. -/
def integer? (n : Int) : Option Value :=
  if -9223372036854775808 ≤ n && n ≤ 9223372036854775807 then some (.integer n) else none

/-- Reads an integer: decimal with an optional sign, or hexadecimal, octal or binary without. -/
def readInteger? (cs : List Char) : Option Value :=
  let inBase (base : Nat) (ds : List Char) : Option Value :=
    (ungroup? (isDigitOf base) ds).bind fun ds => integer? (valueOfDigits base ds)
  match cs with
  | '0' :: 'x' :: ds => inBase 16 ds
  | '0' :: 'o' :: ds => inBase 8 ds
  | '0' :: 'b' :: ds => inBase 2 ds
  | cs =>
    let (negative, ds) := splitSign cs
    (decimalDigits? ds).bind fun ds =>
      let n : Int := valueOfDigits 10 ds
      integer? (if negative then -n else n)

/-- Reads the digits after the point, if there is one. -/
def readPlaces? : List Char → Option (List Char)
  | [] => some []
  | _ :: ds => ungroup? Char.isDigit ds

/-- Reads the power of ten after an `e`, if there is one. -/
def readPower? : List Char → Option Int
  | [] => some 0
  | _ :: cs =>
    let (negative, ds) := splitSign cs
    (ungroup? Char.isDigit ds).map fun ds =>
      let n : Int := valueOfDigits 10 ds
      if negative then -n else n

/-- Reads the digits of a float, with a point, a power of ten or both. -/
def readFinite? (negative : Bool) (cs : List Char) : Option Decimal.Binary64 := do
  let isE (c : Char) : Bool := c = 'e' || c = 'E'
  guard (cs.any fun c => c = '.' || isE c)
  let mantissa := cs.takeWhile fun c => !isE c
  let whole ← decimalDigits? (mantissa.takeWhile (· ≠ '.'))
  let places ← readPlaces? (mantissa.dropWhile (· ≠ '.'))
  let power ← readPower? (cs.dropWhile fun c => !isE c)
  let x := Decimal.Binary64.ofDecimal negative (valueOfDigits 10 (whole ++ places))
    (power - places.length)
  guard (x.magnitude ≠ .infinite)
  return x

/-- Reads a float: a finite one or one of the special values. -/
def readFloat? (cs : List Char) : Option Value :=
  let (negative, cs) := splitSign cs
  if cs = ['i', 'n', 'f'] then some (.float (.infinity negative))
  else if cs = ['n', 'a', 'n'] then some (.float (.nan negative))
  else (readFinite? negative cs).map .float

/-- Reads a plain value from the characters that make it up. -/
def readScalar? (cs : List Char) : Option Value :=
  if cs = ['t', 'r', 'u', 'e'] then some (.boolean true)
  else if cs = ['f', 'a', 'l', 's', 'e'] then some (.boolean false)
  else
    match Datetime.ofChars? cs with
    | some d => some (.datetime d)
    | none => (readInteger? cs).or (readFloat? cs)

/-- A character that a plain value may hold. -/
def isScalarChar (c : Char) : Bool :=
  c.isAlphanum || c ∈ ['_', '+', '-', '.', ':']

/-- Splits the characters of a plain value off what follows. A date takes the time of day after a
single space with it. -/
def splitScalar (cs : List Char) : List Char × List Char :=
  let first := cs.takeWhile isScalarChar
  match readDate? first, cs.dropWhile isScalarChar with
  | some (_, []), ' ' :: c :: rest =>
    if c.isDigit then
      (first ++ ' ' :: (c :: rest).takeWhile isScalarChar, (c :: rest).dropWhile isScalarChar)
    else (first, ' ' :: c :: rest)
  | _, rest => (first, rest)

end LogTopology.Document
