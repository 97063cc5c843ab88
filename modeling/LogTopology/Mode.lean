import LogTopology.SetupError
/-!
# How loggers deliver

A logger writes its records at once or hands them to a pool of workers. A pool has a queue of
bounded size; the policy of a logger says what happens when it finds the queue full.
-/

namespace LogTopology

/-- Whether a logger writes at once or through a pool. -/
inductive Delivery where
  | sync
  | async
  deriving DecidableEq, Repr

/-- The delivery that a document's text selects. -/
def Delivery.parse (s : String) : Setup Delivery :=
  if s = "sync" then .ok .sync
  else if s = "async" then .ok .async
  else .error (.badLoggerType s)

/-- What a logger does when the queue of its pool is full. -/
inductive OverflowPolicy where
  /-- Wait for room. -/
  | block
  /-- Discard the oldest queued record. -/
  | overrunOldest
  deriving DecidableEq, Repr

namespace OverflowPolicy

/-- The name of a policy in documents. -/
def name : OverflowPolicy → String
  | block => "block"
  | overrunOldest => "overrun_oldest"

/-- The policy that a document's text selects. -/
def parse (s : String) : Setup OverflowPolicy :=
  if s = block.name then .ok block
  else if s = overrunOldest.name then .ok overrunOldest
  else .error (.badOverflowPolicy s)

end OverflowPolicy

/-- The length of a pool's queue and the number of its workers. -/
structure PoolSize where
  queue : Nat
  threads : Nat
  deriving DecidableEq, Repr

/-- The pool of a logger: a given one, or the one that serves all loggers without a pool of their
own when the logger is made. -/
inductive PoolChoice (P : Type) where
  | shared
  | named (pool : P)
  deriving DecidableEq, Repr

/-- How a logger delivers: at once, or through a pool. -/
inductive LoggerMode (P : Type) where
  | sync
  | async (pool : PoolChoice P) (policy : OverflowPolicy)
  deriving DecidableEq, Repr

end LogTopology
