import LogTopology.Calendar.Date
import LogTopology.Decimal.Numeral
import LogTopology.Decimal.Padded
/-!
# Dates and times in documents

A document may hold a date, a time of day, or both, and both with an offset. Reading checks that
the date exists and that the time lies within its day; the written form has a `T` between date and
time, a capital `Z` for UTC, and a fraction of a second without zeros at its end, or none if that
leaves no digit.
-/

namespace LogTopology.Document

open Decimal (padded valueOf)

/-- A time of day, with the fraction of a second in nanoseconds. -/
structure ClockTime where
  hour : Nat
  minute : Nat
  second : Nat
  nanos : Nat
  deriving DecidableEq, Repr

/-- The offset of a date with time: UTC itself or a number of minutes east of it. -/
inductive Offset where
  | utc
  | minutes (east : Int)
  deriving DecidableEq, Repr

/-- A date, a time, or a date with a time and perhaps an offset. -/
inductive Datetime where
  | date (date : Calendar.Date)
  | time (time : ClockTime)
  | both (date : Calendar.Date) (time : ClockTime) (offset : Option Offset)
  deriving DecidableEq, Repr

/-- Reads exactly `count` digits. -/
def takeDigits? (count : Nat) (cs : List Char) : Option (Nat × List Char) :=
  let ds := cs.take count
  if ds.length = count && ds.all Char.isDigit then
    some (valueOf ds, cs.drop count)
  else none

/-- Reads one given character. -/
def expect? (c : Char) : List Char → Option (List Char)
  | d :: cs => if c = d then some cs else none
  | [] => none

/-- Reads a date that exists in the calendar. -/
def readDate? (cs : List Char) : Option (Calendar.Date × List Char) := do
  let (year, cs) ← takeDigits? 4 cs
  let (month, cs) ← takeDigits? 2 (← expect? '-' cs)
  let (day, cs) ← takeDigits? 2 (← expect? '-' cs)
  guard (1 ≤ month && month ≤ 12 && 1 ≤ day && day ≤ Calendar.Date.daysInMonth year month)
  return (⟨year, month, day⟩, cs)

/-- The nanoseconds that the digits of a fraction stand for; digits after the ninth are cut off. -/
def nanosOf (ds : List Char) : Nat :=
  let kept := ds.take 9
  valueOf kept * Nat.pow 10 (9 - kept.length)

/-- Reads the fraction of a second in nanoseconds; where none follows it is zero. -/
def readFraction? : List Char → Option (Nat × List Char)
  | '.' :: cs =>
    let ds := cs.takeWhile Char.isDigit
    if ds = [] then none else some (nanosOf ds, cs.dropWhile Char.isDigit)
  | cs => some (0, cs)

/-- Reads a time within a day; a leap second is one. -/
def readTime? (cs : List Char) : Option (ClockTime × List Char) := do
  let (hour, cs) ← takeDigits? 2 cs
  let (minute, cs) ← takeDigits? 2 (← expect? ':' cs)
  let (second, cs) ← takeDigits? 2 (← expect? ':' cs)
  let (nanos, cs) ← readFraction? cs
  guard (hour ≤ 23 && minute ≤ 59 && second ≤ 60)
  return (⟨hour, minute, second, nanos⟩, cs)

/-- Reads the hours and minutes of an offset. -/
def readMinutes? (sign : Int) (cs : List Char) : Option (Option Offset × List Char) := do
  let (hours, cs) ← takeDigits? 2 cs
  let (minutes, cs) ← takeDigits? 2 (← expect? ':' cs)
  guard (hours ≤ 23 && minutes ≤ 59)
  return (some (.minutes (sign * (hours * 60 + minutes))), cs)

/-- Reads an offset, if one follows. -/
def readOffset? : List Char → Option (Option Offset × List Char)
  | 'Z' :: cs => some (some .utc, cs)
  | 'z' :: cs => some (some .utc, cs)
  | '+' :: cs => readMinutes? 1 cs
  | '-' :: cs => readMinutes? (-1) cs
  | cs => some (none, cs)

namespace Datetime

/-- Reads the time and the offset after a date. -/
def readAfterDate? (day : Calendar.Date) (cs : List Char) : Option Datetime := do
  let (clock, cs) ← readTime? cs
  let (offset, cs) ← readOffset? cs
  guard cs.isEmpty
  return .both day clock offset

/-- Reads a date, a time, or both with `T`, `t` or one space between them. -/
def ofChars? (cs : List Char) : Option Datetime :=
  match readDate? cs with
  | some (day, []) => some (.date day)
  | some (day, c :: cs) => if c ∈ ['T', 't', ' '] then readAfterDate? day cs else none
  | none => do
    let (clock, cs) ← readTime? cs
    guard cs.isEmpty
    return .time clock

/-- The text of a date. -/
def dateText (d : Calendar.Date) : List Char :=
  padded 4 d.year.toNat ++ '-' :: padded 2 d.month ++ '-' :: padded 2 d.day

/-- The text of a fraction of a second, without zeros at its end. A whole second has none. -/
def fractionText (nanos : Nat) : List Char :=
  if nanos = 0 then [] else '.' :: ((padded 9 nanos).reverse.dropWhile (· = '0')).reverse

/-- The text of a time of day. -/
def timeText (t : ClockTime) : List Char :=
  padded 2 t.hour ++ ':' :: padded 2 t.minute ++ ':' :: padded 2 t.second ++ fractionText t.nanos

/-- The text of an offset. -/
def offsetText : Offset → List Char
  | .utc => ['Z']
  | .minutes east =>
    (if east < 0 then '-' else '+') :: padded 2 (east.natAbs / 60) ++
      ':' :: padded 2 (east.natAbs % 60)

/-- The written form of a date or time. -/
def toText : Datetime → String
  | .date d => String.ofList (dateText d)
  | .time t => String.ofList (timeText t)
  | .both d t offset =>
    String.ofList (dateText d ++ 'T' :: timeText t ++ offset.elim [] offsetText)

end Datetime

end LogTopology.Document
