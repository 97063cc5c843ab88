import LogTopology.Event
import LogTopology.Level
import LogTopology.Text.Quoted
/-!
# Events as log messages

An event becomes a message for a logger: its domain between brackets, its message, and its other
fields with their names. An event of the engine itself is never passed on, since a sink that fails
would report on its own report.
-/

namespace LogTopology.Bridge

/-- The level of a severity. -/
def levelOf : Severity → Level
  | .trace => .trace
  | .debug => .debug
  | .info => .info
  | .warn => .warn
  | .error => .err

/-- The text of a value beside the name of its field. -/
def valueText : FieldValue → String
  | .text s => Text.quote s
  | .shown s => s
  | .unsigned n => toString n
  | .signed n => toString n
  | .flag b => if b then "true" else "false"

/-- Drops the quotes around a printed text. -/
def dropQuotes (s : String) : String :=
  String.ofList (((s.toList.dropWhile (· = '"')).reverse.dropWhile (· = '"')).reverse)

/-- What has been collected from the fields of an event. -/
structure Collected where
  domain : Option String
  message : String
  /-- The other fields with their names, in order and with spaces between them. -/
  others : String
  deriving DecidableEq, Repr

namespace Collected

/-- Nothing has been collected. -/
def empty : Collected := ⟨none, "", ""⟩

/-- Collects a field beside its name, behind those that are there. -/
def addOther (c : Collected) (name : String) (value : FieldValue) : Collected :=
  let gap := if c.others = "" then "" else " "
  { c with others := c.others ++ gap ++ (name ++ "=" ++ valueText value) }

/-- Collects a field. A domain or a message that is a number or a flag is a field like any other. -/
def add (c : Collected) (field : String × FieldValue) : Collected :=
  match field.2 with
  | .text s =>
    if field.1 = "domain" then { c with domain := some s }
    else if field.1 = "message" then { c with message := s }
    else c.addOther field.1 field.2
  | .shown s =>
    if field.1 = "domain" then { c with domain := some (dropQuotes s) }
    else if field.1 = "message" then { c with message := c.message ++ s }
    else c.addOther field.1 field.2
  | _ => c.addOther field.1 field.2

/-- The text of what has been collected. -/
def text (c : Collected) : String :=
  let lead := c.domain.elim "" fun d => "[" ++ d ++ "] "
  let gap := if c.message = "" || c.others = "" then "" else " "
  lead ++ c.message ++ gap ++ c.others

end Collected

/-- The message of an event. -/
def message (e : Event) : String :=
  (e.fields.foldl Collected.add .empty).text

/-- Whether an event comes from the engine itself. -/
def isOwn (e : Event) : Bool :=
  engineTarget.toList.isPrefixOf e.target.toList

/-- What a logger of the given level gets of an event. -/
def forward? (threshold : Level) (e : Event) : Option (Level × String) :=
  let level := levelOf e.severity
  if isOwn e || !threshold.allows level then none else some (level, message e)

end LogTopology.Bridge
