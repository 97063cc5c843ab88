import LogTopology.Calendar.Moment
import LogTopology.Decimal.Padded
/-!
# Written times

How the parts of a wall clock time are written. Parts are padded with zeros; a year outside of 0 to
9999 has a sign; a leap second is second 60.
-/

namespace LogTopology.Calendar

open Decimal (padded)

/-- A year with at least four digits, and with its sign when it is negative or has more. -/
def yearText (year : Int) : List Char :=
  if year < 0 then '-' :: padded 4 year.natAbs
  else if 9999 < year then '+' :: padded 4 year.natAbs
  else padded 4 year.natAbs

/-- The short name of a day of the week, Monday being 0. -/
def weekdayName (n : Nat) : List Char :=
  ([['M', 'o', 'n'], ['T', 'u', 'e'], ['W', 'e', 'd'], ['T', 'h', 'u'], ['F', 'r', 'i'],
    ['S', 'a', 't'], ['S', 'u', 'n']])[n]?.getD []

/-- The short name of a month, January being 1. -/
def monthName (n : Nat) : List Char :=
  ([[], ['J', 'a', 'n'], ['F', 'e', 'b'], ['M', 'a', 'r'], ['A', 'p', 'r'], ['M', 'a', 'y'],
    ['J', 'u', 'n'], ['J', 'u', 'l'], ['A', 'u', 'g'], ['S', 'e', 'p'], ['O', 'c', 't'],
    ['N', 'o', 'v'], ['D', 'e', 'c']])[n]?.getD []

/-- The offset of a clock in hours and minutes, to the nearest minute. -/
def offsetText (offset : Int) : List Char :=
  let minutes := (offset.natAbs + 30) / 60
  (if offset < 0 then '-' else '+') :: padded 2 (minutes / 60) ++
    ':' :: padded 2 (minutes % 60)

namespace WallTime

/-- The second that the clock shows; a leap second is one more than the second before it. -/
def shownSecond (t : WallTime) : Nat :=
  t.secondOfMinute + t.nano / 1000000000

/-- Hours, minutes and seconds. -/
def clockText (t : WallTime) : List Char :=
  padded 2 t.hour ++ ':' :: padded 2 t.minute ++ ':' :: padded 2 t.shownSecond

/-- Month, day and the last two digits of the year. -/
def dateText (t : WallTime) : List Char :=
  let d := t.date
  padded 2 d.month ++ '/' :: padded 2 d.day ++ '/' ::
    padded 2 (d.year.emod 100).toNat

/-- The day of the week, the date, the time and the year. -/
def stampText (t : WallTime) : List Char :=
  let d := t.date
  weekdayName (Date.weekday t.days) ++ ' ' :: monthName d.month ++ ' ' :: padded 2 d.day ++
    ' ' :: t.clockText ++ ' ' :: yearText d.year

end WallTime

end LogTopology.Calendar
