import LogTopology.Decimal.Notation
import LogTopology.Decimal.Numeral
import LogTopology.Text.Expression
/-!
# Demands on fields

What a directive may ask of a field: that it is declared, or also that its value is a certain one.
A wanted value is written after an equals sign and is taken for a truth value, for a number, or
else for a regular expression.
-/

namespace LogTopology.Bridge

open Decimal (Binary64)

/-- A value that a field is wanted to have. -/
inductive Wanted where
  | flag (b : Bool)
  | unsigned (n : Nat)
  | signed (n : Int)
  | float (x : Binary64)
  /-- A text that a regular expression describes. -/
  | described (pattern : List Char)
  deriving DecidableEq, Repr

namespace Wanted

/-- Reads a wanted value. Integers have to fit into 64 bits; larger ones are floats. -/
def read? (cs : List Char) : Option Wanted :=
  let unsigned := (Decimal.readNatural? cs).filter (· < UInt64.size)
  let signed := (Decimal.readInteger? cs).filter fun n =>
    -9223372036854775808 ≤ n && n ≤ 9223372036854775807
  if cs = ['t', 'r', 'u', 'e'] then some (.flag true)
  else if cs = ['f', 'a', 'l', 's', 'e'] then some (.flag false)
  else
    (unsigned.map .unsigned).or <| (signed.map .signed).or <|
      ((Decimal.readFloat? cs).map .float).or <|
        if Text.isExpression cs then some (.described cs) else none

/-- The text of a wanted value. -/
def text : Wanted → String
  | .flag b => if b then "true" else "false"
  | .unsigned n => toString n
  | .signed n => toString n
  | .float x => x.toPlain
  | .described pattern => String.ofList pattern

/-- Where a float stands among all: by its value, with the two zeros in one place. -/
def floatRank (x : Binary64) : Nat :=
  let size := x.bits.toNat % 9223372036854775808
  if x.isNegative then 9223372036854775808 - size else 9223372036854775808 + size

/-- What the order of wanted values goes by: their kind, then the value itself. -/
def rank : Wanted → List Nat
  | .flag b => [0, if b then 1 else 0]
  | .float x => if x.magnitude = .notANumber then [2] else [1, floatRank x]
  | .unsigned n => [3, n]
  | .signed n => [4, (n + 9223372036854775808).toNat]
  | .described pattern => 5 :: pattern.map Char.toNat

end Wanted

/-- What is asked of a field: its name, and the value if one is wanted. -/
structure Demand where
  name : List Char
  value : Option Wanted
  deriving DecidableEq, Repr

namespace Demand

/-- Reads a demand: a name, and after an equals sign a value that ends at another such sign. -/
def read? (cs : List Char) : Option Demand :=
  match cs.splitOn '=' with
  | name :: value :: _ => (Wanted.read? value).map fun w => ⟨name, some w⟩
  | _ => some ⟨cs, none⟩

/-- The text of a demand. -/
def text (d : Demand) : String :=
  String.ofList d.name ++ d.value.elim "" fun w => "=" ++ w.text

/-- What the order of demands goes by: whether a value is wanted, the name, and the value. -/
def rank (d : Demand) : List (List Nat) :=
  [[if d.value.isSome then 1 else 0], d.name.map Char.toNat, d.value.elim [] Wanted.rank]

end Demand

end LogTopology.Bridge
