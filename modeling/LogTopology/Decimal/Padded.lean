/-!
# Padded numbers

Natural numbers in decimal with zeros in front, as dates, times and file names have them.
-/

namespace LogTopology.Decimal

/-- A number in decimal, with zeros in front up to the given width. -/
def padded (width n : Nat) : List Char :=
  let ds := Nat.toDigits 10 n
  List.replicate (width - ds.length) '0' ++ ds

end LogTopology.Decimal
