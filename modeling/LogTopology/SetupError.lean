import LogTopology.Document.Decode
/-!
# Why a set-up fails

Every operation on documents and every build fails with one of these causes, perhaps within a
context that says what was being done. The message of a cause is the only thing that a caller sees;
a context goes on a line before it.
-/

namespace LogTopology

/-- What was being done when something failed. -/
inductive Context where
  | sink (name : String)
  | logger (name : String)
  | parsing (path : String)
  | saving (path : String)
  | deleting (path entry : String)
  | within (path : String)
  | writing (path : String)
  | creatingDirectory (path : String)
  | openingLog (path : String)
  | labelled (text : String)
  deriving DecidableEq, Repr

/-- The line that a context puts before a message. -/
def Context.message : Context → String
  | sink name => s!"Sink '{name}' error"
  | logger name => s!"Logger '{name}' error"
  | parsing path => s!"Unable to parse file at '{path}'"
  | saving path => s!"Unable to parse file at '{path}' for saving"
  | deleting path entry => s!"Unable to parse file at '{path}' for deleting logger '{entry}'"
  | within path => s!"Error in file at '{path}'"
  | writing path => s!"Unable to open '{path}' for writing"
  | creatingDirectory path => s!"Unable to create directory at '{path}'"
  | openingLog path => s!"Failed opening file '{path}' for writing"
  | labelled text => text

/-- Why a set-up fails. -/
inductive SetupError where
  /-- An error that is known by its message only. -/
  | reported (text : String)
  | within (context : Context) (cause : SetupError)
  /-- The text is no document. -/
  | malformedDocument
  | missingFile (path : String)
  | unreadableFile (path cause : String)
  | notTableArray (key : String)
  | notTable (key : String)
  /-- A field does not hold what it should; `owner` tells whose field it is where that is said. -/
  | badField (field : String) (owner : Option String) (mismatch : Document.Mismatch)
  | namelessOverride (key : String)
  | noLoggerArray
  | badLevel (text : String)
  | badSize (fault : ByteSize.Fault)
  | badSinkType (text : String)
  | badLoggerType (text : String)
  | badOverflowPolicy (text : String)
  /-- A sink of the family lacks a field; `holding` says what the field should hold. -/
  | missingSinkField (field holding family : String)
  | rotationOutOfRange (field : String) (most got : Nat)
  | badFacility (got : Int)
  | noSinks
  /-- An entry among the things named here has no name. -/
  | nameless (things : String)
  | typelessSink (name : String)
  | repeatedSink (name : String)
  | unknownSink (name : String)
  | unknownTarget (target sink : String)
  /-- The sinks of a chain forward to one another, the last one being the first again. -/
  | sinkCycle (chain : List String)
  | valuelessPattern (name : String)
  | repeatedPool (name : String)
  | missingDimension (field owner : String)
  | zeroDimension (field owner : String)
  | noLoggers
  | sinklessLogger (name : String)
  | unknownLoggerSink (sink logger : String)
  | unknownLoggerPool (pool logger : String)
  | unknownLoggerPattern (pattern logger : String)
  | refusedPattern (logger : String) (cause : SetupError)
  | danglingFlag (pattern : String)
  | unknownFlag (flag : Char) (pattern : String)
  | emptyPool (queueSize threads : Nat)
  | badRotationTime (hour minute : Nat)
  | zeroMaxSize (path : String)
  | bridgeInstalled
  | unknownBridgeLogger (name : String)

namespace SetupError

/-- A number with at least two digits. -/
def twoDigits (n : Nat) : String :=
  String.ofList (Decimal.padded 2 n)

/-- The message of a cause. -/
def message : SetupError → String
  | reported text => text
  | within context cause => s!"{context.message}:\n > {cause.message}"
  | malformedDocument => "Invalid configuration document: the text is malformed"
  | missingFile path => s!"Unable to find configuration file at '{path}'"
  | unreadableFile path cause => s!"Error reading file at '{path}': {cause}"
  | notTableArray key => s!"'{key}' must be an array of tables"
  | notTable key => s!"'{key}' must be a table"
  | badField field none m => s!"Invalid value for '{field}' field: {m.message}"
  | badField field (some owner) m => s!"Invalid value for '{field}' field of {owner}: {m.message}"
  | namelessOverride key => s!"One of the items in override '{key}' does not have a name"
  | noLoggerArray => "Unable to find any logger table array"
  | badLevel text => s!"Invalid level string '{text}' provided"
  | badSize fault => fault.message
  | badSinkType text => s!"Invalid sink type '{text}' found"
  | badLoggerType text => s!"Invalid logger type '{text}', expected 'sync' or 'async'"
  | badOverflowPolicy text =>
    s!"Invalid overflow policy '{text}', expected 'block' or 'overrun_oldest'"
  | missingSinkField field holding family =>
    s!"Missing '{field}' field of {holding} value for {family}"
  | rotationOutOfRange field most got => s!"'{field}' must be within 0..={most}, got {got}"
  | badFacility got =>
    s!"'syslog_facility' must be a facility code shifted left by 3 (0..=184), got {got}"
  | noSinks => "No sinks configured for set-up"
  | nameless things => s!"One of the {things} does not have a 'name' field"
  | typelessSink name => s!"Sink '{name}' does not have a 'type' field"
  | repeatedSink name => s!"Sink '{name}' declared more than once"
  | unknownSink name => s!"Unable to find sink '{name}'"
  | unknownTarget target sink => s!"Unable to find sink '{target}' referenced by sink '{sink}'"
  | sinkCycle chain => "Sink reference cycle detected: " ++ String.intercalate " -> " chain
  | valuelessPattern name => s!"Pattern '{name}' does not have a 'value' field"
  | repeatedPool name => s!"Thread pool '{name}' declared more than once"
  | missingDimension field owner => s!"Missing '{field}' field of {owner}"
  | zeroDimension field owner => s!"'{field}' of {owner} must be greater than 0"
  | noLoggers => "No loggers configured for set-up"
  | sinklessLogger name => s!"Logger '{name}' does not have a 'sinks' field of sink names"
  | unknownLoggerSink sink logger => s!"Unable to find sink '{sink}' for logger '{logger}'"
  | unknownLoggerPool pool logger => s!"Unable to find thread pool '{pool}' for logger '{logger}'"
  | unknownLoggerPattern pattern logger =>
    s!"Pattern name '{pattern}' cannot be found for logger '{logger}'"
  | refusedPattern logger cause =>
    s!"Error setting pattern to logger '{logger}': {cause.message}"
  | danglingFlag pattern => s!"Dangling '%' at end of pattern '{pattern}'"
  | unknownFlag flag pattern => s!"Unknown flag '%{flag}' in pattern '{pattern}'"
  | emptyPool queueSize threads =>
    s!"Thread pool needs queue_size and num_threads above 0, got {queueSize} and {threads}"
  | badRotationTime hour minute =>
    s!"Invalid rotation time {twoDigits hour}:{twoDigits minute} for daily file sink"
  | zeroMaxSize path => s!"Rotating file sink '{path}' needs a max_size above 0"
  | bridgeInstalled =>
    "Unable to install tracing bridge: a global default trace dispatcher has already been set"
  | unknownBridgeLogger name => s!"Unable to find logger '{name}' to bridge into"

end SetupError

/-- The outcome of an operation that may fail in a set-up. -/
abbrev Setup := Except SetupError

/-- Puts a context before the error of an operation. -/
def Setup.within {α : Type} (context : Context) (s : Setup α) : Setup α :=
  s.mapError (.within context)

/-- The level of a name in a document. -/
def Level.parse (s : String) : Setup Level :=
  match Level.ofName? s with
  | some l => .ok l
  | none => .error (.badLevel s)

end LogTopology
