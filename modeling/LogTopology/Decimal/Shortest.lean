import LogTopology.Decimal.Binary64
/-!
# Shortest decimals

The decimal with the fewest digits that reads back as a given floating-point number. All decimals
between the two points halfway to the neighbouring numbers read back; for 1, 2, ... digits the two
points of the decimal grid around the number are tested, and of two hits the nearer one is taken.
-/

namespace LogTopology.Decimal

/-- The decimal `digits * 10 ^ exponent`. -/
structure Written where
  digits : Nat
  exponent : Int
  deriving DecidableEq, Repr

/-- Moves a zero at the end of the digits into the exponent. -/
def Written.normal (w : Written) : Written :=
  if w.digits % 10 = 0 then ⟨w.digits / 10, w.exponent + 1⟩ else w

/-- A positive number `4 * m * 2 ^ q` as a quotient, with the distances to the two halfway points
in the same unit. -/
structure Interval where
  num : Nat
  den : Nat
  below : Nat
  above : Nat
  /-- Whether the halfway points themselves read back as the number. -/
  closed : Bool

/-- The decimals that read back as `significand * 2 ^ exponent`. The gap below a power of two is
half as wide, except at the bottom of the range. -/
def interval (significand : Nat) (exponent : Int) : Interval :=
  let q := exponent - 2
  let unit := Nat.pow 2 q.toNat
  let narrow := significand = Nat.pow 2 52 && -1074 < exponent
  ⟨4 * significand * unit, Nat.pow 2 (-q).toNat, if narrow then unit else 2 * unit, 2 * unit,
    significand % 2 = 0⟩

/-- Whether the quotient `n / d` lies in the interval. -/
def Interval.holds (i : Interval) (n d : Nat) : Bool :=
  let low := (i.num - i.below) * d
  let high := (i.num + i.above) * d
  let x := n * i.den
  if i.closed then low ≤ x && x ≤ high else low < x && x < high

/-- The position of the leading digit of `num / den`: the number is at least `10 ^ p` and below
`10 ^ (p + 1)`. Every positive floating-point number is above `10 ^ -400`. -/
def leadingPosition (num den : Nat) : Int :=
  (Nat.toDigits 10 (num * Nat.pow 10 400 / den)).length - 401

/-- The decimal of the given digit count that reads back, if one does. -/
def Interval.withDigits? (i : Interval) (count : Nat) : Option Written :=
  let k := leadingPosition i.num i.den - count + 1
  let up := Nat.pow 10 k.toNat
  let down := Nat.pow 10 (-k).toNat
  let n := i.num * down / (i.den * up)
  let lower := i.holds (n * up) down
  let upper := i.holds ((n + 1) * up) down
  let twice := 2 * i.num * down
  let middle := (2 * n + 1) * up * i.den
  if lower && upper then
    some ⟨if twice < middle || (twice = middle && n % 2 = 0) then n else n + 1, k⟩
  else if lower then some ⟨n, k⟩
  else if upper then some ⟨n + 1, k⟩
  else none

/-- The shortest decimal that reads back as `significand * 2 ^ exponent`. Seventeen digits always
do. The upper of the two points of a grid may have one digit more than the grid, a zero. -/
def shortest (significand : Nat) (exponent : Int) : Written :=
  if significand = 0 then ⟨0, 0⟩
  else
    let i := interval significand exponent
    (((List.range 17).findSome? fun c => i.withDigits? (c + 1)).getD ⟨0, 0⟩).normal

end LogTopology.Decimal
