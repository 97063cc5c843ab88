import LogTopology.Decimal.Shortest
/-!
# How numbers are written

Three notations of a floating-point number, all with the shortest digits that read back: positional
for every size, with a point (in documents and messages) or with one only where places ask for it
(in filters), and positional for middling sizes only, with a power of ten beyond (in the fields of
an event).
-/

namespace LogTopology.Decimal

/-- The digits of a number, at least one. -/
def digitsOf (n : Nat) : List Char :=
  Nat.toDigits 10 n

/-- A decimal in positional notation, with a point only before digits that need one. -/
def Written.positional (w : Written) : List Char :=
  let ds := digitsOf w.digits
  let places := (-w.exponent).toNat
  if 0 ≤ w.exponent then ds ++ List.replicate (if w.digits = 0 then 0 else w.exponent.toNat) '0'
  else if places < ds.length then ds.take (ds.length - places) ++ '.' :: ds.drop (ds.length - places)
  else '0' :: '.' :: List.replicate (places - ds.length) '0' ++ ds

/-- Completes a positional decimal to one with a point. -/
def withPoint (cs : List Char) : List Char :=
  if cs.contains '.' then cs else cs ++ ['.', '0']

/-- A decimal with one digit before the point and the power of ten after an `e`. -/
def Written.scientific (w : Written) : List Char :=
  let ds := digitsOf w.digits
  let power : Int := w.exponent + (ds.length - 1 : Nat)
  ds.take 1 ++ (if ds.length = 1 then [] else '.' :: ds.drop 1) ++ 'e' :: (toString power).toList

namespace Binary64

/-- Puts the sign of a number before the text of its magnitude. -/
def signed (x : Binary64) (cs : List Char) : String :=
  String.ofList (if x.isNegative then '-' :: cs else cs)

/-- A number in positional notation with a point; what is no number is `NaN`, without a sign. -/
def toPositional (x : Binary64) : String :=
  match x.magnitude with
  | .notANumber => "NaN"
  | .infinite => x.signed ['i', 'n', 'f']
  | .finite m q => x.signed (withPoint (shortest m q).positional)

/-- A number in positional notation, with a point only before digits that need one. -/
def toPlain (x : Binary64) : String :=
  match x.magnitude with
  | .notANumber => "NaN"
  | .infinite => x.signed ['i', 'n', 'f']
  | .finite m q => x.signed (shortest m q).positional

/-- A number as a field of an event shows it: positional from `10 ^ -4` up to `10 ^ 16`, in
scientific notation outside. -/
def toGeneral (x : Binary64) : String :=
  match x.magnitude with
  | .notANumber => "NaN"
  | .infinite => x.signed ['i', 'n', 'f']
  | .finite m q =>
    let i := interval m q
    let p := leadingPosition i.num i.den
    if m = 0 || (-4 ≤ p && p < 16) then x.signed (withPoint (shortest m q).positional)
    else x.signed (shortest m q).scientific

/-- A number as a document writes it: like `toPositional`, with `nan` in small letters and never
signed. -/
def toDocument (x : Binary64) : String :=
  match x.magnitude with
  | .notANumber => "nan"
  | _ => x.toPositional

end Binary64

end LogTopology.Decimal
