import LogTopology.Bridge.Message
import LogTopology.Engine.Delivery
/-!
# Loggers that get events

A logger to which a bridge leads gets the events that are reported while the engine runs. The level
that it has at that time decides which events become messages; these it logs like any other message.
-/

namespace LogTopology.Engine

/-- An event is reported while a bridge leads to a logger. -/
def observe (e : Engine) (logger : Nat) (event : Event) : Engine :=
  match e.loggers[logger]?.bind fun l => Bridge.forward? l.level event with
  | none => e
  | some (level, text) => e.log logger level text

end LogTopology.Engine
