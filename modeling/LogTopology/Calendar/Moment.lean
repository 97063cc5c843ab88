import LogTopology.Calendar.Date
/-!
# Moments and wall clocks

A moment is a count of seconds with nanoseconds and the offset of the clock that shows it. A wall
clock time is what that clock shows: a day, a second of the day and nanoseconds, where a leap second
is a second 59 with more than a thousand million nanoseconds. Wall clock times are ordered by day,
then second, then nanosecond.
-/

namespace LogTopology.Calendar

/-- A moment in seconds and nanoseconds from the start of 1970, and the offset east of UTC, in
seconds, of the clock that shows it. -/
structure Moment where
  seconds : Int
  nanos : Nat
  offset : Int
  deriving DecidableEq, Repr, Inhabited

/-- What a wall clock shows: days from the first of January 1970, seconds of the day, and
nanoseconds. -/
structure WallTime where
  days : Int
  second : Nat
  nano : Nat
  deriving DecidableEq, Repr, Inhabited

/-- What the clock of a moment shows. -/
def Moment.wall (m : Moment) : WallTime :=
  let total := m.seconds + m.offset
  ⟨total.fdiv 86400, (total.emod 86400).toNat, m.nanos⟩

namespace WallTime

/-- The date that the clock shows. -/
def date (t : WallTime) : Date :=
  .ofDays t.days

/-- The clock time of the given date, hour, minute, second and nanosecond. -/
def ofFields (date : Date) (hour minute second nano : Nat) : WallTime :=
  ⟨date.toDays, hour * 3600 + minute * 60 + second, nano⟩

/-- The hour that the clock shows. -/
def hour (t : WallTime) : Nat := t.second / 3600

/-- The minute that the clock shows. -/
def minute (t : WallTime) : Nat := t.second / 60 % 60

/-- The second of the minute, without a leap second. -/
def secondOfMinute (t : WallTime) : Nat := t.second % 60

/-- Whether one time comes before another. -/
def before (a b : WallTime) : Bool :=
  a.days < b.days ||
    (a.days == b.days && (a.second < b.second || (a.second == b.second && a.nano < b.nano)))

/-- The first time strictly after `now` at which the clock shows the given second of the day. -/
def nextAt (now : WallTime) (second : Nat) : WallTime :=
  let today : WallTime := ⟨now.days, second, 0⟩
  if now.before today then today else ⟨now.days + 1, second, 0⟩

end WallTime

end LogTopology.Calendar
