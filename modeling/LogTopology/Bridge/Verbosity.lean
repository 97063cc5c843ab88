import LogTopology.Decimal.Numeral
import LogTopology.Event
/-!
# Verbosity

How much of what is reported is let through: nothing, or everything of a severity or above. A
verbosity is written by its name or by a number.
-/

namespace LogTopology.Bridge

/-- How much is let through: nothing, or everything of a severity or above. -/
abbrev Verbosity := Option Severity

/-- The verbosities with their names, the quietest first. -/
def verbosities : List (String × Verbosity) :=
  [("off", none), ("error", some .error), ("warn", some .warn), ("info", some .info),
    ("debug", some .debug), ("trace", some .trace)]

/-- The name of a verbosity. -/
def verbosityName (v : Verbosity) : String :=
  ((verbosities.find? fun n => n.2 = v).map Prod.fst).getD ""

/-- Whether a verbosity lets a severity pass. -/
def lets (v : Verbosity) (s : Severity) : Bool :=
  (verbosities.findIdx fun n => n.2 = some s) ≤ verbosities.findIdx fun n => n.2 = v

/-- The verbosity that a text names, in letters of either case or as a number from 0 to 5. -/
def readVerbosity? (cs : List Char) : Option Verbosity :=
  match Decimal.readNatural? cs with
  | some n => (verbosities[n]?).map Prod.snd
  | none => (verbosities.find? fun n => n.1 = String.ofList (cs.map Char.toLower)).map Prod.snd

/-- The verbosity behind the equals sign of a directive; nothing there means everything. -/
def readLevel? (cs : List Char) : Option Verbosity :=
  if cs = [] then some (some .trace) else readVerbosity? cs

end LogTopology.Bridge
