import LogTopology.Calendar.Moment
import LogTopology.Level
/-!
# Log records

What one log call hands on: who logged, how severe it is, when and on which thread, and the message.

The time and the thread come with the record; no clock is read here.
-/

namespace LogTopology

/-- One log call. -/
structure Record where
  logger : String
  level : Level
  time : Calendar.Moment
  thread : Nat
  payload : String
  deriving DecidableEq, Repr

end LogTopology
