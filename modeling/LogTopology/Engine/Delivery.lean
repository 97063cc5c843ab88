import LogTopology.Engine.Basic
/-!
# Delivering records

What becomes of a record after a log call. A logger that delivers at once writes the record to its
sinks; another posts a job to its pool. A worker takes the jobs in order and runs each of them to
its end, except that a gate holds it up until the gate is opened. It leaves when the pool has been
closed and no job waits.

Nothing else runs while jobs are being posted here, so a worker that is not held up is always done
before the next thing happens.
-/

namespace LogTopology.Engine

/-- Runs a job. -/
def run (e : Engine) : Job → Engine
  | .write logger record =>
    match e.loggers[logger]? with
    | none => e
    | some l => (e.logToAll l.sinks record (e.line l.pattern record)).2
  | .flush logger =>
    match e.loggers[logger]? with
    | none => e
    | some l => SinkRef.flushEach flushLeaf l.sinks e
  | .gate _ => e
  | .mark _ => e

/-- Whether a job holds its worker up. -/
def holdsUp (e : Engine) : Job → Bool
  | .gate number => e.gates ≤ number
  | _ => false

/-- A worker of a pool takes a job and runs it, unless the job holds it up, or it leaves; nothing
when it has to wait. -/
def work? (e : Engine) (pool : Nat) : Option Engine := do
  let p ← e.pools[pool]?
  match p.take? with
  | some (job, p) =>
    if e.holdsUp job then return e.setPool pool p
    else return (e.run job).setPool pool (p.complete (p.running.length - 1))
  | none => return e.setPool pool (← p.leave?)

/-- Lets the workers of a pool take at most `count` jobs, or leave. -/
def settle (pool : Nat) : Nat → Engine → Engine
  | 0, e => e
  | count + 1, e =>
    match e.work? pool with
    | some e => settle pool count e
    | none => e

/-- Lets the workers of a pool go on until they wait or have left. -/
def settleAll (e : Engine) (pool : Nat) : Engine :=
  settle pool ((e.pools[pool]?.map fun p => p.queue.length + p.size.threads).getD 0) e

/-- Posts a job; nothing when the post has to wait for room. -/
def post? (e : Engine) (pool : Nat) (job : Job) (policy : OverflowPolicy) : Option Engine := do
  let (p, _) ← (← e.pools[pool]?).post? job policy
  return e.setPool pool p

/-- Posts a job and lets the workers go on. A post that has to wait for room waits for workers that
are held up, and comes to nothing here. -/
def post (e : Engine) (pool : Nat) (job : Job) (policy : OverflowPolicy) : Engine :=
  match e.post? pool job policy with
  | some e => e.settleAll pool
  | none => e

/-- Hands a job of a logger on: to its pool, or to be run at once. -/
def dispatch (e : Engine) (l : LoggerState) (job : Job) (policy : Option OverflowPolicy) : Engine :=
  match l.dispatch with
  | .direct => e.run job
  | .pooled pool own => e.post pool job (policy.getD own)

/-- The record of a log call that is made now. -/
def recordOf (e : Engine) (l : LoggerState) (level : Level) (payload : String) : Record :=
  ⟨l.name, level, e.world.now, 1, payload⟩

/-- Logs a message, if the logger's level lets it pass. -/
def log (e : Engine) (logger : Nat) (level : Level) (payload : String) : Engine :=
  match e.loggers[logger]? with
  | none => e
  | some l =>
    if l.level.allows level then
      e.dispatch l (.write logger (e.recordOf l level payload)) none
    else e

/-- Flushes the sinks of a logger, after all that was posted before. -/
def flush (e : Engine) (logger : Nat) : Engine :=
  match e.loggers[logger]? with
  | none => e
  | some l => e.dispatch l (.flush logger) (some .block)

/-- Flushes all registered loggers. -/
def flushAll (e : Engine) : Engine :=
  (e.registry.map Prod.snd).foldl flush e

/-- Posts a gate that holds up a worker of a pool. -/
def shutGate (e : Engine) (pool : Nat) : Engine :=
  e.post pool (.gate e.gates) .block

/-- Lets the workers go on that gates hold up. -/
def passGates (e : Engine) (pool : Nat) : Engine :=
  match e.pools[pool]? with
  | none => e
  | some p => (e.setPool pool (p.running.foldl (fun p _ => p.complete 0) p)).settleAll pool

/-- Opens all gates. -/
def openGates (e : Engine) : Engine :=
  (List.range e.pools.length).foldl passGates { e with gates := e.gates + 1 }

/-- Closes a pool that nobody holds any more and has not been closed; its workers run the jobs that
wait, and leave. -/
def closePool (e : Engine) (pool : Nat) : Engine :=
  match e.pools[pool]? with
  | none => e
  | some p => if p.closed then e else (e.setPool pool p.close).settleAll pool

/-- Flushes the given leaves, whose sinks are given up. -/
def giveUp (e : Engine) (sinks : List Nat) : Engine :=
  sinks.foldl (fun e sink => (e.flushLeaf sink).2) e

/-- How a logger describes itself. -/
def describeLogger (l : LoggerState) : String :=
  let pooled := match l.dispatch with
    | .direct => "false"
    | .pooled _ _ => "true"
  "Logger \x7b name: " ++ Text.quote l.name ++ ", level: " ++ l.level.title ++ ", sinks: " ++
    toString l.sinks.length ++ ", async: " ++ pooled ++ " \x7d"

end LogTopology.Engine
