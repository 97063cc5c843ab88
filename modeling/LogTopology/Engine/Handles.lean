import LogTopology.Engine.Session
/-!
# Handles

How the user of a session makes things, holds on to them and lets them go. A logger that is let go
is found by its name no more, but goes on for whoever holds it; a sink or a pool that is let go
serves on in the loggers that were made with it.
-/

namespace LogTopology.Session

/-! ## Making -/

/-- Makes a sink and holds it. -/
def makeSink (s : Session) (name : String) (kind : Sink.Kind) (targets : List SinkRef) :
    Setup SinkRef × Session :=
  match s.engine.makeSink kind targets with
  | .error e => (.error e, s)
  | .ok (sink, e) => (.ok sink, { s with engine := e, sinks := hold name sink s.sinks })

/-- Makes a pool and holds it. -/
def makePool (s : Session) (name : String) (size : PoolSize) : Setup (Pool Job) × Session :=
  match s.engine.addPool size with
  | .error e => (.error e, s)
  | .ok (pool, e) =>
    match e.pools[pool]? with
    | none => (.error (.emptyPool size.queue size.threads), s)
    | some p => (.ok p, { s with engine := e, pools := hold name pool s.pools })

/-- Makes a logger and registers it; tells whether it took the place of another. -/
def makeLogger (s : Session) (name : String) (sinks : List SinkRef) (dispatch : Dispatch) :
    Bool × Session :=
  let taken := (s.engine.find? name).isSome
  let (logger, e) := s.engine.addLogger name sinks dispatch
  (taken, s.withEngine (e.register logger))

/-! ## Holding and letting go -/

/-- Holds a logger under a name of the user's own; tells whether there is such a logger. -/
def holdLogger (s : Session) (name own : String) : Bool × Session :=
  match s.logger? name with
  | none => (false, s)
  | some logger => (true, { s with loggers := hold own logger s.loggers })

/-- Takes a logger out of the registry, and holds it if a name to hold it by is given; tells whether
it was registered. -/
def dropLogger (s : Session) (name : String) (own : Option String) : Bool × Session :=
  match s.engine.find? name with
  | none => (false, s)
  | some logger =>
    let loggers := own.elim s.loggers fun own => hold own logger s.loggers
    (true, { s with engine := s.engine.unregister name, loggers := loggers })

/-- Lets a sink go; tells whether it was held. -/
def dropSink (s : Session) (name : String) : Bool × Session :=
  ((s.sinks.lookup name).isSome, { s with sinks := s.sinks.filter fun h => h.1 ≠ name })

/-- Lets a pool go, and tells in what state it was. -/
def dropPool (s : Session) (name : String) : Option (Pool Job) × Session :=
  ((s.pools.lookup name).bind fun i => s.engine.pools[i]?,
    { s with pools := s.pools.filter fun h => h.1 ≠ name })

/-- The marks that have been left in a pool, in order. -/
def marks (p : Pool Job) : List Nat :=
  p.ran.filterMap fun
    | .mark number => some number
    | _ => none

/-! ## The pool that serves all -/

/-- The pool that serves all loggers without one of their own. -/
def sharedPool (s : Session) : Setup (Option (Pool Job)) × Session :=
  match s.engine.sharedPool with
  | .error f => (.error f, s)
  | .ok (pool, e) => (.ok e.pools[pool]?, s.withEngine e)

/-- Puts a pool in the place of the one that serves all, and tells the one before it. -/
def replaceShared (s : Session) (pool : Nat) : Option (Pool Job) × Session :=
  (s.engine.shared.bind fun i => s.engine.pools[i]?,
    s.withEngine { s.engine with shared := some pool })

/-! ## Writing past the loggers -/

/-- What becomes of a record that is handed to a sink. -/
inductive Handed where
  /-- The level of the sink does not let it pass. -/
  | filtered
  /-- The sink got its line, and may have failed. -/
  | written (fault : Option FileError)
  deriving DecidableEq, Repr

/-- Hands a record to a sink in the form of a pattern; `force` passes over the level of the sink. -/
def handTo (s : Session) (sink : SinkRef) (force : Bool) (pattern : String) (record : Record) :
    Setup Handed × Session :=
  if !force && !(s.engine.threshold sink.id).allows record.level then (.ok .filtered, s)
  else
    match Pattern.compile pattern with
    | .error e => (.error e, s)
    | .ok p =>
      let (fault, e) := s.engine.logTo sink record (s.engine.line p record)
      (.ok (.written fault), s.withEngine e)

/-- Gives a logger another pattern, unless the pattern is none. -/
def setPattern (s : Session) (logger : Nat) (pattern : String) : Setup Unit × Session :=
  match Pattern.compile pattern with
  | .error e => (.error e, s)
  | .ok p => (.ok (), s.withEngine (s.engine.editLogger logger fun l => { l with pattern := p }))

end LogTopology.Session
