/-!
# Events

What the library reports about its own work, and what an observer may be told by others: an event
has a target, a severity and named fields in order. A place that reports events declares its fields
once for all of them, and a single event may leave out the value of a declared field. The fields
`domain` and `message` have a meaning of their own where events become log messages.
-/

namespace LogTopology

/-- How severe an event is. -/
inductive Severity where
  | trace
  | debug
  | info
  | warn
  | error
  deriving DecidableEq, Repr

/-- The value of an event's field, by the way in which it was recorded. -/
inductive FieldValue where
  /-- A text. -/
  | text (s : String)
  /-- A value that is known by its printed form. -/
  | shown (s : String)
  | unsigned (n : Nat)
  | signed (n : Int)
  | flag (b : Bool)
  deriving DecidableEq, Repr

/-- Something that was reported. -/
structure Event where
  target : String
  severity : Severity
  /-- The names of the fields that the reporting place declares. -/
  declared : List String
  /-- The fields that have a value, in order. -/
  fields : List (String × FieldValue)
  deriving DecidableEq, Repr

/-- The parts of the library that report on their work. -/
inductive Reporter where
  | templates
  | overlays
  | sinks
  | patterns
  | pools
  | loggers
  | setup
  deriving DecidableEq, Repr

namespace Reporter

/-- The target of a part's events, by which filters tell them apart. -/
def target : Reporter → String
  | templates => "lgs_config::template"
  | overlays => "lgs_config::merge"
  | sinks => "lgs_core::sink::resolve"
  | patterns => "lgs_core::pattern"
  | pools => "lgs_core::thread_pool"
  | loggers => "lgs_core::logger"
  | setup => "lgs_core::setup"

/-- The domain of a part's events. -/
def domain : Reporter → String
  | sinks => "sink"
  | pools => "pool"
  | loggers => "logger"
  | _ => "conf"

end Reporter

/-- What the targets of the engine's own events start with. -/
def engineTarget : String := "lgs_runtime"

/-- An event with a value for every field that is declared. -/
def Event.complete (target : String) (severity : Severity) (fields : List (String × FieldValue)) :
    Event :=
  ⟨target, severity, fields.map Prod.fst, fields⟩

/-- An event of the library: who reports, the message and the other fields. -/
def Event.about (reporter : Reporter) (severity : Severity) (message : String)
    (fields : List (String × FieldValue)) : Event :=
  .complete reporter.target severity
    (("message", .shown message) :: ("domain", .text reporter.domain) :: fields)

end LogTopology
