import LogTopology.Decimal.Binary64
/-!
# Decimal numerals

Reading numbers that are written plainly: digits with an optional sign, and for floating-point
numbers a point, a power of ten, or one of the special values.
-/

namespace LogTopology.Decimal

/-- The number that decimal digits denote. -/
def valueOf (ds : List Char) : Nat :=
  ds.foldl (fun n c => 10 * n + (c.toNat - '0'.toNat)) 0

/-- Reads a run of digits, at least one and nothing else. -/
def readDigits? (cs : List Char) : Option Nat :=
  if cs ≠ [] && cs.all Char.isDigit then some (valueOf cs) else none

/-- Reads a natural number, which may have a plus in front. -/
def readNatural? : List Char → Option Nat
  | '+' :: cs => readDigits? cs
  | cs => readDigits? cs

/-- Reads an integer with an optional sign. -/
def readInteger? : List Char → Option Int
  | '-' :: cs => (readDigits? cs).map fun n => -n
  | cs => (readNatural? cs).map fun n => n

/-- Reads a power of ten behind its mark, where nothing stands for the power zero. -/
def readPower? : List Char → Option Int
  | [] => some 0
  | c :: cs => if c = 'e' || c = 'E' then readInteger? cs else none

/-- Reads the magnitude of a floating-point number: a special value in letters of either case, or
digits with a point among or beside them and perhaps a power of ten. -/
def readMagnitude? (negative : Bool) (cs : List Char) : Option Binary64 :=
  let word := cs.map Char.toLower
  if word = ['i', 'n', 'f'] || word = ['i', 'n', 'f', 'i', 'n', 'i', 't', 'y'] then
    some (.infinity negative)
  else if word = ['n', 'a', 'n'] then some (.nan negative)
  else
    let whole := cs.takeWhile Char.isDigit
    let rest := cs.dropWhile Char.isDigit
    let behind := if rest.head? = some '.' then rest.drop 1 else []
    let places := behind.takeWhile Char.isDigit
    let power := if rest.head? = some '.' then behind.dropWhile Char.isDigit else rest
    if whole ++ places = [] then none
    else
      (readPower? power).map fun p =>
        .ofDecimal negative (valueOf (whole ++ places)) (p - places.length)

/-- Reads a floating-point number with an optional sign. -/
def readFloat? : List Char → Option Binary64
  | '-' :: cs => readMagnitude? true cs
  | '+' :: cs => readMagnitude? false cs
  | cs => readMagnitude? false cs

end LogTopology.Decimal
