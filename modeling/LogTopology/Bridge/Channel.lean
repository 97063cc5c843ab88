import LogTopology.Bridge.Filter
import LogTopology.Bridge.Message
import LogTopology.SetupError
/-!
# The bridge of a process

At most one bridge is installed in a process. It leads to one logger: the filter is chosen when it
is installed, by the surroundings or by the level that the logger has then, and the logger's own
level counts for every event anew.
-/

namespace LogTopology.Bridge

/-- An installed bridge. -/
structure Channel where
  filter : Filter

namespace Channel

/-- The bridge to a logger of the given level. -/
def toLogger (asked : Option String) (level : Level) : Channel :=
  ⟨.forLogger asked level⟩

/-- What a logger of the given level gets of an event. -/
def receive? (c : Channel) (threshold : Level) (e : Event) : Option (Level × String) :=
  if c.filter.passes e then forward? threshold e else none

end Channel

/-- Installs a bridge to the logger of a name, whose level is given if there is such a logger. -/
def install (present : Option Channel) (asked : Option String) (name : String)
    (found : Option Level) : Setup Channel :=
  match found, present with
  | none, _ => .error (.unknownBridgeLogger name)
  | some _, some _ => .error .bridgeInstalled
  | some level, none => .ok (.toLogger asked level)

end LogTopology.Bridge
