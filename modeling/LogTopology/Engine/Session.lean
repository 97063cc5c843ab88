import LogTopology.Engine.Delivery
import LogTopology.Engine.Documents
/-!
# Sessions

An engine together with the things that its user holds on to: loggers, sinks and pools by names of
the user's own, and the sinks of the last build that was kept. A sink that neither the registry nor
the user nor a waiting job can reach any more is given up, and writes out what it holds back. A
pool that neither the user nor a logger holds, and that does not serve all loggers, is closed.
-/

namespace LogTopology

open Engine (Builder)

/-- An engine and what its user holds. -/
structure Session where
  engine : Engine
  loggers : List (String × Nat)
  sinks : List (String × SinkRef)
  pools : List (String × Nat)
  kept : List (String × SinkRef)

/-- What is told about a sink. -/
structure SinkInfo where
  kind : String
  level : Level
  targets : List String

namespace Session

/-- A session in which nothing has happened. -/
def start (w : World) : Session :=
  ⟨.start w, [], [], [], []⟩

/-- Names a thing that the user holds. -/
def hold {α : Type} (name : String) (a : α) (held : List (String × α)) : List (String × α) :=
  (name, a) :: held.filter fun h => h.1 ≠ name

/-- The logger of a name: one that the user holds when the name starts with an at sign, and else
the registered one. -/
def logger? (s : Session) (name : String) : Option Nat :=
  match name.toList with
  | '@' :: held => s.loggers.lookup (String.ofList held)
  | _ => s.engine.find? name

/-- The state of the logger of a name. -/
def loggerState? (s : Session) (name : String) : Option LoggerState :=
  (s.logger? name).bind fun i => s.engine.loggers[i]?

/-! ## Giving up -/

/-- The loggers that jobs in a pool refer to. -/
def loggersIn (p : Pool Job) : List Nat :=
  (p.queue ++ p.running).filterMap fun
    | .write logger _ => some logger
    | .flush logger => some logger
    | _ => none

/-- The numbers of all sinks that can still be reached. -/
def reachable (s : Session) : List Nat :=
  let e := s.engine
  let loggers :=
    e.registry.map Prod.snd ++ s.loggers.map Prod.snd ++ e.pools.flatMap loggersIn
  let held := (s.sinks ++ s.kept).map Prod.snd
  SinkRef.reachAll (held ++ loggers.flatMap fun i => (e.loggers[i]?.map LoggerState.sinks).getD [])

/-- The numbers of the pools that are held: by the user, by a logger that can be asked for, or as
the one that serves all. -/
def heldPools (s : Session) : List Nat :=
  let loggers := s.engine.registry.map Prod.snd ++ s.loggers.map Prod.snd
  s.pools.map Prod.snd ++ s.engine.shared.toList ++ loggers.filterMap fun i =>
    match (s.engine.loggers[i]?).map LoggerState.dispatch with
    | some (.pooled pool _) => some pool
    | _ => none

/-- Closes the pools that nobody holds any more. -/
def closePools (s : Session) : Session :=
  let held := s.heldPools
  let lost := (List.range s.engine.pools.length).filter fun i => !held.contains i
  { s with engine := lost.foldl Engine.closePool s.engine }

/-- Gives up what can no longer be reached. -/
def tidy (s : Session) : Session :=
  let s := s.closePools
  let live := s.reachable
  let lost := (List.range s.engine.sinks.length).filter fun i => !live.contains i
  { s with engine := s.engine.giveUp lost }

/-- Goes on with another engine. -/
def withEngine (s : Session) (e : Engine) : Session :=
  { s with engine := e }

/-! ## Set-ups -/

/-- Runs the plan of a set-up. -/
def build {α : Type} (s : Session) (plan : Engine.EnginePlan α) : Run Session α :=
  let r := plan.run Engine.backend ⟨s.engine, []⟩
  ⟨r.result, r.events, s.withEngine r.state.engine⟩

/-- Runs the plan of a set-up and keeps the sinks that it makes. -/
def buildKept {α : Type} (s : Session) (plan : Engine.EnginePlan α) : Run Session α :=
  let r := plan.run Engine.backend ⟨s.engine, []⟩
  ⟨r.result, r.events, { s.withEngine r.state.engine with kept := r.state.made }⟩

/-- The last build that was kept. -/
def builder (s : Session) : Builder :=
  ⟨s.engine, s.kept⟩

/-- Saves the level of a logger. -/
def save (s : Session) (l : LoggerState) (path : String) (overwrite : Bool) :
    Setup Unit × Session :=
  match Engine.saveLevel s.engine.world.disk path l.name l.level overwrite with
  | .error e => (.error e, s)
  | .ok d => (.ok (), s.withEngine { s.engine with world := { s.engine.world with disk := d } })

/-- Removes the entry of a logger from a file. -/
def delete (s : Session) (path name : String) : Setup Bool × Session :=
  match Engine.deleteEntry? s.engine.world.disk path name with
  | .error e => (.error e, s)
  | .ok none => (.ok false, s)
  | .ok (some d) =>
    (.ok true, s.withEngine { s.engine with world := { s.engine.world with disk := d } })

/-- Changes the disk, unless that fails. -/
def onDisk (s : Session) (edit : Disk → Except FileError Disk) : Option FileError × Session :=
  match edit s.engine.world.disk with
  | .error f => (some f, s)
  | .ok d => (none, s.withEngine { s.engine with world := { s.engine.world with disk := d } })

/-! ## Telling -/

/-- The name of a sink's kind. -/
def kindName (s : Session) (sink : SinkRef) : String :=
  ((s.engine.leaf? sink.id).map Leaf.kindName).getD "dist"

/-- What is told about a sink. -/
def sinkInfo (s : Session) (sink : SinkRef) : SinkInfo :=
  ⟨s.kindName sink, s.engine.threshold sink.id, sink.targets.map s.kindName⟩

/-- The pool of a logger and its policy, if it has one. -/
def poolOf? (s : Session) (l : LoggerState) : Option (Pool Job × OverflowPolicy) :=
  match l.dispatch with
  | .direct => none
  | .pooled pool policy => s.engine.pools[pool]?.map fun p => (p, policy)

/-- The file that a daily sink writes to. -/
def currentFile? (s : Session) (sink : SinkRef) : Option String :=
  match s.engine.leaf? sink.id with
  | some (.daily file) => some file.path
  | _ => none

/-- What has been printed since the last time it was asked for, and the session from then on. -/
def takePrinted (s : Session) : (String × String) × Session :=
  let w := s.engine.world
  ((String.ofList w.out, String.ofList w.err),
    s.withEngine { s.engine with world := { w with out := [], err := [] } })

/-- The files and directories in the working directory, in order; a directory has no text. -/
def files (s : Session) : List (String × Option String) :=
  let d := s.engine.world.disk
  let shown := d.items.filterMap fun (p, item) =>
    match p, item with
    | "/" :: _, _ => none
    | ".." :: _, _ => none
    | p, .directory => some (String.intercalate "/" p ++ "/", none)
    | p, .file id => some (String.intercalate "/" p, some (Text.decodeLossy (d.bytes id)))
    | _, _ => none
  shown.mergeSort fun a b => a.1 ≤ b.1

end Session

end LogTopology
