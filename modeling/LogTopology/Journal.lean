import LogTopology.Plan
/-!
# The journal

A backend that makes nothing and writes down what it was asked for. It numbers the sinks, pools and
loggers, and it may be told which calls to refuse.
-/

namespace LogTopology.Journal

/-- Something that was asked for: its number among its like, and its name. -/
structure Item where
  id : Nat
  name : String
  deriving DecidableEq, Repr

/-- One line of the journal. -/
inductive Entry where
  | directory (path : String)
  | sink (id : Nat) (name : String) (kind : Sink.Kind) (forwards : List Nat)
  | sinkLevel (id : Nat) (level : Level)
  | sharedPool (size : PoolSize)
  | pool (id : Nat) (name : String) (size : PoolSize)
  | logger (id : Nat) (name : String) (sinks : List Nat) (mode : LoggerMode Item)
  | loggerLevel (id : Nat) (level : Level)
  | pattern (id : Nat) (pattern : String)
  | register (id : Nat) (name : String)
  deriving DecidableEq, Repr

/-- What was written down, and how many of each there are. -/
structure State where
  entries : List Entry
  sinks : Nat
  pools : Nat
  loggers : Nat

/-- The journal without entries. -/
def State.empty : State := ⟨[], 0, 0, 0⟩

/-- Writes an entry. -/
def State.write (s : State) (e : Entry) : State :=
  { s with entries := s.entries ++ [e] }

/-- What a call is known by to someone who wants it refused; calls that never fail have nothing. -/
def label? {β : Type} : Call Item Item Item β → Option String
  | .createDirectory path => some s!"create_dir_all:{path}"
  | .createSink name _ _ => some s!"create_sink:{name}"
  | .setSinkLevel _ _ => none
  | .setSharedPool _ => some "set_global_thread_pool:"
  | .createPool name _ => some s!"create_thread_pool:{name}"
  | .createLogger name _ _ => some s!"create_logger:{name}"
  | .setLoggerLevel _ _ => none
  | .setPattern _ pattern => some s!"set_pattern:{pattern}"
  | .register logger => some s!"register:{logger.name}"

/-- Answers a call and writes it down. -/
def write {β : Type} (c : Call Item Item Item β) (s : State) : β × State :=
  match c with
  | .createDirectory path => ((), s.write (.directory path))
  | .createSink name kind forwards =>
    (⟨s.sinks, name⟩,
      { s.write (.sink s.sinks name kind (forwards.map Item.id)) with sinks := s.sinks + 1 })
  | .setSinkLevel sink level => ((), s.write (.sinkLevel sink.id level))
  | .setSharedPool size => ((), s.write (.sharedPool size))
  | .createPool name size =>
    (⟨s.pools, name⟩, { s.write (.pool s.pools name size) with pools := s.pools + 1 })
  | .createLogger name sinks mode =>
    (⟨s.loggers, name⟩,
      { s.write (.logger s.loggers name (sinks.map Item.id) mode) with loggers := s.loggers + 1 })
  | .setLoggerLevel logger level => ((), s.write (.loggerLevel logger.id level))
  | .setPattern logger pattern => ((), s.write (.pattern logger.id pattern))
  | .register logger => ((), s.write (.register logger.id logger.name))

/-- The backend that refuses the calls with the given labels. -/
def backend (refused : List String) : Backend State Item Item Item where
  perform c s :=
    match (label? c).filter (· ∈ refused) with
    | some label => (.error (.reported s!"injected {label}"), s)
    | none =>
      let (x, s) := write c s
      (.ok x, s)

end LogTopology.Journal
