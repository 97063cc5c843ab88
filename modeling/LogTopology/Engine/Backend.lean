import LogTopology.Engine.Basic
import LogTopology.Plan
/-!
# The engine as a backend

The engine makes what a plan asks for. For one build it also remembers which sinks were made under
which names.
-/

namespace LogTopology.Engine

/-- The engine during a build, and the sinks that the build has made, by name, in order. -/
structure Builder where
  engine : Engine
  made : List (String × SinkRef)

namespace Builder

/-- The sink that was made under a name. -/
def sink? (b : Builder) (name : String) : Option SinkRef :=
  b.made.lookup name

/-- The names of the sinks that a sink forwards to, in order. -/
def forwardNames (b : Builder) (name : String) : List String :=
  match b.sink? name with
  | none => []
  | some sink =>
    sink.targets.filterMap fun target =>
      (b.made.find? fun m => m.2.id = target.id).map Prod.fst

/-- Changes the engine only. -/
def withEngine (b : Builder) (e : Engine) : Builder :=
  { b with engine := e }

end Builder

/-- Makes the directory of a log file. -/
def makeDirectory (e : Engine) (path : String) : Setup Unit × Engine :=
  let (fault, d) := e.world.disk.makeAll path
  let e := { e with world := { e.world with disk := d } }
  match fault with
  | none => (.ok (), e)
  | some f => (.error (.within (.creatingDirectory path) (.reported f.message)), e)

/-- How a logger of the given mode delivers. -/
def dispatchOf (e : Engine) : LoggerMode Nat → Setup (Dispatch × Engine)
  | .sync => return (.direct, e)
  | .async (.named pool) policy => return (.pooled pool policy, e)
  | .async .shared policy => do
    let (pool, e) ← e.sharedPool
    return (.pooled pool policy, e)

/-- An outcome that leaves the builder as it was when it is an error. -/
def settleSetup {β : Type} (b : Builder) (s : Setup (β × Builder)) : Setup β × Builder :=
  match s with
  | .ok (x, b) => (.ok x, b)
  | .error e => (.error e, b)

/-- Answers a call. -/
def answer {β : Type} (c : Call SinkRef Nat Nat β) (b : Builder) : Setup β × Builder :=
  let e := b.engine
  match c with
  | .createDirectory path =>
    let (r, e) := makeDirectory e path
    (r, b.withEngine e)
  | .createSink name kind targets => settleSetup b do
    let (sink, e) ← e.makeSink kind targets
    return (sink, ⟨e, b.made ++ [(name, sink)]⟩)
  | .setSinkLevel sink level => (.ok (), b.withEngine (e.setSinkLevel sink.id level))
  | .setSharedPool size => settleSetup b do
    let (pool, e) ← e.addPool size
    return ((), b.withEngine { e with shared := some pool })
  | .createPool _ size => settleSetup b do
    let (pool, e) ← e.addPool size
    return (pool, b.withEngine e)
  | .createLogger name sinks mode => settleSetup b do
    let (dispatch, e) ← dispatchOf e mode
    let (logger, e) := e.addLogger name sinks dispatch
    return (logger, b.withEngine e)
  | .setLoggerLevel logger level =>
    (.ok (), b.withEngine (e.editLogger logger fun l => { l with level := level }))
  | .setPattern logger pattern => settleSetup b do
    let p ← Pattern.compile pattern
    return ((), b.withEngine (e.editLogger logger fun l => { l with pattern := p }))
  | .register logger => (.ok (), b.withEngine (e.register logger))

/-- The engine as a backend. -/
def backend : Backend Builder SinkRef Nat Nat where
  perform := answer

end LogTopology.Engine
