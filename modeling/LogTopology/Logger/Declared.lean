import LogTopology.Pattern.Table
import LogTopology.Pool.Table
import LogTopology.Sink.Resolve
/-!
# Declared loggers

The plan that makes the loggers of a document, one after the other. Everything that an entry refers
to is looked up before the logger is made; then it gets its level and its pattern and is registered.
Loggers that were registered before a failing one stay registered.
-/

namespace LogTopology.Logger

/-- What the entry of a logger may refer to. -/
structure Surroundings (S P : Type) where
  sinks : Sink.SinkTable S
  patterns : PatternTable
  pools : PoolTable P
  /-- The pattern of loggers that name none. -/
  globalPattern : Option String

variable {S P L : Type}

/-- The things to be had under a name, or an error. -/
def lookupOr {α : Type} (found : Option α) (e : SetupError) : Setup α :=
  match found with
  | some a => .ok a
  | none => .error e

/-- Whether the logger of an entry writes at once, as it does when nothing else is said. -/
def deliveryOf (name : String) (entry : Document.Table) : Setup Delivery := do
  match ← Document.optional .string entry "type" with
  | some text => (Delivery.parse text).within (.logger name)
  | none => return .sync

/-- The pool of an entry: the one that it names, or else the shared one. -/
def poolOf (pools : PoolTable P) (name : String) (entry : Document.Table) :
    Setup (PoolChoice P) := do
  match ← Document.optional .string entry "thread_pool" with
  | some pool => .named <$> lookupOr (pools.lookup pool) (.unknownLoggerPool pool name)
  | none => return .shared

/-- What the logger of an entry does when the queue of its pool is full. -/
def policyOf (name : String) (entry : Document.Table) : Setup OverflowPolicy := do
  match ← Document.optional .string entry "overflow_policy" with
  | some text => (OverflowPolicy.parse text).within (.logger name)
  | none => return .block

/-- How the logger of an entry delivers. A logger that writes at once has no use for a pool. -/
def modeOf (pools : PoolTable P) (name : String) (entry : Document.Table) :
    Delivery → Setup (LoggerMode P)
  | .sync => return .sync
  | .async => do
    let pool ← poolOf pools name entry
    return .async pool (← policyOf name entry)

/-- The pattern of an entry: the one that it names, or else the global one. -/
def patternOf (env : Surroundings S P) (name : String) (entry : Document.Table) :
    Setup (Option String) := do
  match ← Document.optional .string entry "pattern" with
  | some pattern =>
    some <$> lookupOr (env.patterns.get? pattern) (.unknownLoggerPattern pattern name)
  | none => return env.globalPattern

/-- The level of an entry, if it gives one. -/
def levelOf (name : String) (entry : Document.Table) : Setup (Option Level) := do
  match ← Document.optional .string entry "level" with
  | some text => some <$> (Level.parse text).within (.logger name)
  | none => return none

/-- Everything that an entry says about its logger. -/
structure Order (S P : Type) where
  sinks : List S
  mode : LoggerMode P
  pattern : Option String
  level : Option Level

/-- Reads an entry. -/
def Order.ofEntry (env : Surroundings S P) (name : String) (entry : Document.Table) :
    Setup (Order S P) := do
  let delivery ← deliveryOf name entry
  let sinkNames ← Document.stringArray entry "sinks" (.sinklessLogger name)
  let sinks ← sinkNames.mapM fun sink =>
    lookupOr (env.sinks.lookup sink) (.unknownLoggerSink sink name)
  let mode ← modeOf env.pools name entry delivery
  let pattern ← patternOf env name entry
  let level ← levelOf name entry
  return ⟨sinks, mode, pattern, level⟩

/-- Sets the level of a logger if it is ordered with one. -/
def assignLevel (logger : L) : Option Level → Plan S P L Unit
  | some level => Plan.ask (.setLoggerLevel logger level)
  | none => pure ()

/-- Sets the pattern of a logger if it is ordered with one. -/
def assignPattern (name : String) (logger : L) : Option String → Plan S P L Unit
  | some pattern => (Plan.ask (.setPattern logger pattern)).mapError (.refusedPattern name)
  | none => pure ()

/-- Makes a logger with its level and its pattern. -/
def make (name : String) (order : Order S P) : Plan S P L L := do
  let logger ← Plan.ask (.createLogger name order.sinks order.mode)
  assignLevel logger order.level
  assignPattern name logger order.pattern
  return logger

/-- Makes and registers the loggers of the given entries. -/
def registerAll (env : Surroundings S P) : List Document.Table → Plan S P L Unit
  | [] => return
  | entry :: entries => do
    match Document.entryName? entry with
    | none => .fail (.nameless "loggers")
    | some name =>
      let logger ← make name (← Plan.ofSetup (Order.ofEntry env name entry))
      Plan.ask (.register logger)
      Plan.report (.about .loggers .debug "logger registered" [("logger", .text name)])
      registerAll env entries

/-- Makes and registers all loggers of a document, and counts them. -/
def ofDocument (env : Surroundings S P) (doc : Document.Table) : Plan S P L Nat := do
  match ← Plan.ofSetup (Document.tableArray doc "logger") with
  | none => .fail .noLoggers
  | some entries =>
    registerAll env entries
    return entries.length

end LogTopology.Logger
