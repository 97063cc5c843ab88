import LogTopology.Pool.Queue
import LogTopology.Sink.Fan
import LogTopology.Sink.Leaf
/-!
# The engine

Everything that logging needs while a program runs: sinks, loggers and pools, each known by its
number, and a registry that finds loggers by name. What was made stays under its number; a name in
the registry goes to the logger that was registered last.
-/

namespace LogTopology

/-- What is known of a sink: its level, and what it does itself if it is not one that forwards. -/
structure SinkState where
  level : Level
  leaf : Option Leaf

/-- How a logger delivers, its pool being known by number. -/
inductive Dispatch where
  | direct
  | pooled (pool : Nat) (policy : OverflowPolicy)
  deriving DecidableEq, Repr

/-- A logger. -/
structure LoggerState where
  name : String
  level : Level
  pattern : Pattern
  sinks : List SinkRef
  dispatch : Dispatch

/-- What the worker of a pool may be asked to do. -/
inductive Job where
  /-- Write a record to the sinks of a logger. -/
  | write (logger : Nat) (record : Record)
  /-- Flush the sinks of a logger. -/
  | flush (logger : Nat)
  /-- Wait until the gate with the number has been opened. -/
  | gate (number : Nat)
  /-- Leave a mark. -/
  | mark (number : Nat)
  deriving DecidableEq, Repr

/-- The engine: what there is by number, the registry, the pool that serves all loggers without one
of their own, and the number of gates that have been opened. -/
structure Engine where
  world : World
  sinks : List SinkState
  loggers : List LoggerState
  pools : List (Pool Job)
  registry : List (String × Nat)
  shared : Option Nat
  gates : Nat

namespace Engine

/-- The engine in its surroundings before anything is set up. The pool that serves all is there. -/
def start (w : World) : Engine :=
  ⟨w, [], [], [.fresh Pool.standardSize], [], some 0, 0⟩

/-- The level of a sink. -/
def threshold (e : Engine) (sink : Nat) : Level :=
  (e.sinks[sink]?.map SinkState.level).getD .off

/-- The leaf with the given number. -/
def leaf? (e : Engine) (sink : Nat) : Option Leaf :=
  e.sinks[sink]?.bind SinkState.leaf

/-- Sets the level of a sink. -/
def setSinkLevel (e : Engine) (sink : Nat) (level : Level) : Engine :=
  { e with sinks := e.sinks.modify sink fun s => { s with level := level } }

/-- Puts a leaf back after it has acted on the surroundings. -/
def putLeaf (e : Engine) (sink : Nat) (leaf : Leaf) (w : World) : Engine :=
  { e with
    world := w
    sinks := e.sinks.modify sink fun s => { s with leaf := some leaf } }

/-- Adds a sink, which lets everything pass at first. -/
def addSink (e : Engine) (leaf : Option Leaf) (w : World) : Engine :=
  { e with world := w, sinks := e.sinks ++ [⟨.trace, leaf⟩] }

/-- Makes a sink of the given kind. -/
def makeSink (e : Engine) (kind : Sink.Kind) (targets : List SinkRef) : Setup (SinkRef × Engine) := do
  match ← Leaf.make e.world kind with
  | some (leaf, w) => return (.leaf e.sinks.length, e.addSink (some leaf) w)
  | none => return (.fan e.sinks.length targets, e.addSink none e.world)

/-- Writes a line to a leaf. -/
def writeLeaf (record : Record) (line : Line) (sink : Nat) (e : Engine) :
    Option FileError × Engine :=
  match e.leaf? sink with
  | none => (none, e)
  | some leaf =>
    let (fault, leaf, w) := leaf.log record line e.world
    (fault, e.putLeaf sink leaf w)

/-- Flushes a leaf. -/
def flushLeaf (sink : Nat) (e : Engine) : Option FileError × Engine :=
  match e.leaf? sink with
  | none => (none, e)
  | some leaf =>
    let (fault, leaf, w) := leaf.flush e.world
    (fault, e.putLeaf sink leaf w)

/-- The line of a record. -/
def line (e : Engine) (p : Pattern) (record : Record) : Line :=
  p.format e.world.process record

/-- Hands the line of a record to a sink, whatever the sink's level. -/
def logTo (e : Engine) (sink : SinkRef) (record : Record) (line : Line) :
    Option FileError × Engine :=
  sink.log e.threshold record.level (writeLeaf record line) e

/-- Hands the line of a record to all sinks that let it pass. -/
def logToAll (e : Engine) (sinks : List SinkRef) (record : Record) (line : Line) :
    Option FileError × Engine :=
  SinkRef.logAll e.threshold record.level (writeLeaf record line) sinks e

/-- Flushes a sink. -/
def flushSink (e : Engine) (sink : SinkRef) : Option FileError × Engine :=
  sink.flush flushLeaf e

/-- Changes a logger. -/
def editLogger (e : Engine) (logger : Nat) (edit : LoggerState → LoggerState) : Engine :=
  { e with loggers := e.loggers.modify logger edit }

/-- Changes a pool. -/
def setPool (e : Engine) (pool : Nat) (p : Pool Job) : Engine :=
  { e with pools := e.pools.set pool p }

/-- Adds a pool, whose number is the number of pools so far. -/
def addPool (e : Engine) (size : PoolSize) : Setup (Nat × Engine) := do
  let p ← Pool.make size
  return (e.pools.length, { e with pools := e.pools ++ [p] })

/-- The pool that serves all loggers without one of their own; it is made when it is missing. -/
def sharedPool (e : Engine) : Setup (Nat × Engine) := do
  match e.shared with
  | some pool => return (pool, e)
  | none =>
    let (pool, e) ← e.addPool Pool.standardSize
    return (pool, { e with shared := some pool })

/-- Adds a logger with the level and the pattern that loggers have at first. -/
def addLogger (e : Engine) (name : String) (sinks : List SinkRef) (dispatch : Dispatch) :
    Nat × Engine :=
  (e.loggers.length,
    { e with loggers := e.loggers ++ [⟨name, .info, .standard, sinks, dispatch⟩] })

/-- The logger that a name is registered for. -/
def find? (e : Engine) (name : String) : Option Nat :=
  e.registry.lookup name

/-- Registers a logger under its name, in the place of the one that had it. -/
def register (e : Engine) (logger : Nat) : Engine :=
  match e.loggers[logger]? with
  | none => e
  | some l => { e with registry := (e.registry.filter fun r => r.1 ≠ l.name) ++ [(l.name, logger)] }

/-- Takes a name out of the registry. -/
def unregister (e : Engine) (name : String) : Engine :=
  { e with registry := e.registry.filter fun r => r.1 ≠ name }

/-- The registered names in order. -/
def names (e : Engine) : List String :=
  (e.registry.map Prod.fst).mergeSort fun a b => a ≤ b

end Engine

end LogTopology
