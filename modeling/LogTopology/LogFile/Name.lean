import LogTopology.Calendar.Date
import LogTopology.Decimal.Padded
import LogTopology.PathText
/-!
# Names of log files

A log file that is put aside has its number, and a file of a day its date, between the stem and the
extension of its name.
-/

namespace LogTopology.LogFile

/-- Puts a mark after the stem of a path's file name. -/
def marked (base : String) (mark : List Char) : String :=
  let ext := (PathText.extension? base).elim [] ('.' :: ·)
  PathText.withFileName base (PathText.stem base ++ mark ++ ext)

/-- The name of a copy; the file itself is copy 0. -/
def copyName (base : String) (index : Nat) : String :=
  if index = 0 then base else marked base ('.' :: Nat.toDigits 10 index)

/-- A year in at least four characters, the sign of a negative one being one of them. -/
def yearMark (year : Int) : List Char :=
  if year < 0 then '-' :: Decimal.padded 3 year.natAbs else Decimal.padded 4 year.natAbs

/-- A date within a file name. -/
def dateMark (d : Calendar.Date) : List Char :=
  yearMark d.year ++ '-' :: Decimal.padded 2 d.month ++ '-' :: Decimal.padded 2 d.day

/-- The name of the file of a day. -/
def dayName (base : String) (d : Calendar.Date) : String :=
  marked base ('_' :: dateMark d)

end LogTopology.LogFile
