/-!
# Binary floating-point numbers

A 64-bit binary floating-point number kept as its stored bits, so that equal bits are equal values
and every statement is one about natural numbers. A finite number is `m * 2 ^ q`; reading a decimal
rounds it to the nearest such product, and a tie goes to the even `m`.
-/

namespace LogTopology.Decimal

/-- A floating-point number by its 64 stored bits: sign, 11 bits of exponent, 52 of fraction. -/
structure Binary64 where
  bits : UInt64
  deriving DecidableEq, Repr, Inhabited

/-- What the bits stand for, apart from the sign. -/
inductive Magnitude where
  | notANumber
  | infinite
  /-- The number `significand * 2 ^ exponent`. -/
  | finite (significand : Nat) (exponent : Int)
  deriving DecidableEq, Repr

namespace Binary64

/-- The sign bit, which zero and values that are no number have too. -/
def isNegative (x : Binary64) : Bool :=
  Nat.pow 2 63 ≤ x.bits.toNat

/-- The stored exponent, between 0 and 2047. -/
def exponentField (x : Binary64) : Nat :=
  x.bits.toNat / Nat.pow 2 52 % 2048

/-- The stored fraction, below `2 ^ 52`. -/
def fractionField (x : Binary64) : Nat :=
  x.bits.toNat % Nat.pow 2 52

/-- The value apart from its sign. An exponent field of 0 means a fraction without the leading
one, a full field means no finite number. -/
def magnitude (x : Binary64) : Magnitude :=
  if x.exponentField = 2047 then
    if x.fractionField = 0 then .infinite else .notANumber
  else if x.exponentField = 0 then .finite x.fractionField (-1074)
  else .finite (Nat.pow 2 52 + x.fractionField) (x.exponentField - 1075)

/-- The bits of a magnitude, given as a number below `2 ^ 63`, with the sign in front. -/
def ofMagnitudeBits (negative : Bool) (n : Nat) : Binary64 :=
  ⟨UInt64.ofNat (if negative then Nat.pow 2 63 + n else n)⟩

/-- The bits of infinity: a full exponent field and no fraction. -/
def infinityBits : Nat :=
  2047 * Nat.pow 2 52

/-- The infinity of the given sign. -/
def infinity (negative : Bool) : Binary64 :=
  ofMagnitudeBits negative infinityBits

/-- The value that is no number, of the given sign. -/
def nan (negative : Bool) : Binary64 :=
  ofMagnitudeBits negative (infinityBits + Nat.pow 2 51)

/-- Whether two values compare as equal: the two zeros do, and a value that is no number differs
from everything. -/
def sameValue (x y : Binary64) : Bool :=
  match x.magnitude, y.magnitude with
  | .notANumber, _ => false
  | _, .notANumber => false
  | .finite 0 _, .finite 0 _ => true
  | _, _ => x == y

end Binary64

/-- The quotient of two natural numbers rounded to the nearest integer, a tie to the even one. -/
def roundDiv (num den : Nat) : Nat :=
  let n := num / den
  let twice := 2 * (num % den)
  if den < twice then n + 1
  else if twice = den then n + n % 2
  else n

/-- The bits of the positive quotient `num / den`, rounded to the nearest floating-point number; a
quotient above the largest one gives the bits of infinity. -/
def quotientBits (num den : Nat) : Nat :=
  let scale (q : Int) : Nat × Nat := (num * Nat.pow 2 (-q).toNat, den * Nat.pow 2 q.toNat)
  let guess : Int := max ((num.log2 : Int) - den.log2 - 52) (-1074)
  let below := (scale guess).1 / (scale guess).2
  let q : Int :=
    if Nat.pow 2 53 ≤ below then guess + 1
    else if below < Nat.pow 2 52 && -1074 < guess then guess - 1
    else guess
  let bits := (q + 1074).toNat * Nat.pow 2 52 + roundDiv (scale q).1 (scale q).2
  min bits Binary64.infinityBits

/-- The floating-point number nearest to `m * 10 ^ e`. Exponents far outside the range of the
format are settled without computing the power. -/
def Binary64.ofDecimal (negative : Bool) (m : Nat) (e : Int) : Binary64 :=
  let size : Int := (Nat.toDigits 10 m).length + e
  .ofMagnitudeBits negative <|
    if m = 0 || size < -400 then 0
    else if 400 < size then infinityBits
    else quotientBits (m * Nat.pow 10 e.toNat) (Nat.pow 10 (-e).toNat)

end LogTopology.Decimal
