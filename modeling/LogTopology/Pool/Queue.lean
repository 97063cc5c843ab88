import LogTopology.Mode
/-!
# Pools of workers

A pool is a queue of bounded length and workers that take jobs from its front. A job is posted when
there is room, or, when the oldest jobs may be discarded, at once; the pool counts what it discards.
Jobs are taken in the order in which they were posted. Once nobody holds the pool any more it is
closed; a worker that then finds no job leaves, and the pool is over when all workers have left.

Whatever is done with the queue while it is locked is one step here, so steps of clients and workers
follow one another and do not overlap.
-/

namespace LogTopology

/-- A pool: its sizes, the jobs that wait, those that are being run and those that have run, in
order, the number of jobs that were discarded, whether the pool has been closed, and the number of
workers that have left. -/
structure Pool (J : Type) where
  size : PoolSize
  queue : List J
  running : List J
  ran : List J
  overrun : Nat
  closed : Bool
  gone : Nat

namespace Pool

variable {J : Type}

/-- A pool of the given sizes to which nothing has happened. -/
def fresh (size : PoolSize) : Pool J :=
  ⟨size, [], [], [], 0, false, 0⟩

/-- Makes a pool; it needs a place in its queue and a worker. -/
def make (size : PoolSize) : Setup (Pool J) :=
  if size.queue = 0 || size.threads = 0 then .error (.emptyPool size.queue size.threads)
  else .ok (fresh size)

/-- The sizes of the pool that serves all loggers when no document says otherwise. -/
def standardSize : PoolSize := ⟨8192, 1⟩

/-- How many jobs a new one has to push out of the queue. -/
def surplus (p : Pool J) : Nat :=
  p.queue.length + 1 - p.size.queue

/-- Posts a job and tells which jobs were discarded for it; nothing when the post has to wait for
room. -/
def post? (p : Pool J) (job : J) (policy : OverflowPolicy) : Option (Pool J × List J) :=
  match p.surplus, policy with
  | 0, _ => some ({ p with queue := p.queue ++ [job] }, [])
  | _ + 1, .block => none
  | n + 1, .overrunOldest =>
    some ({ p with queue := p.queue.drop (n + 1) ++ [job], overrun := p.overrun + (n + 1) },
      p.queue.take (n + 1))

/-- Whether a worker is free: it runs no job and has not left. -/
def free (p : Pool J) : Bool :=
  p.running.length + p.gone < p.size.threads

/-- A worker that is free takes the oldest job, if there are such. -/
def take? (p : Pool J) : Option (J × Pool J) :=
  match p.queue with
  | [] => none
  | job :: queue =>
    if p.free then some (job, { p with queue := queue, running := p.running ++ [job] })
    else none

/-- A worker that is free and finds no job leaves if the pool has been closed. -/
def leave? (p : Pool J) : Option (Pool J) :=
  if p.free && p.queue.isEmpty && p.closed then some { p with gone := p.gone + 1 } else none

/-- A worker is done with the `i`-th of the jobs that are being run. -/
def complete (p : Pool J) (i : Nat) : Pool J :=
  match p.running[i]? with
  | none => p
  | some job => { p with running := p.running.eraseIdx i, ran := p.ran ++ [job] }

/-- Tells the workers that nothing will be posted any more. -/
def close (p : Pool J) : Pool J :=
  { p with closed := true }

/-- How a pool describes itself. -/
def describe (p : Pool J) : String :=
  s!"ThreadPool \x7b queue_size: {p.size.queue}, num_threads: {p.size.threads} \x7d"

end Pool

end LogTopology
