import LogTopology.Document.Section
import LogTopology.Plan
/-!
# Declared pools

The plan that sets up the pools of a document: first the pool that serves all loggers without one
of their own, then the named pools. A pool has at least one place in its queue and one worker.
-/

namespace LogTopology

/-- The pools made so far, by name. -/
abbrev PoolTable (P : Type) := List (String × P)

namespace PoolTable

variable {S P L : Type}

/-- A size that a pool has to have, greater than zero. -/
def dimension (t : Document.Table) (field owner : String) : Setup Nat :=
  match Document.lookup .count t field with
  | .present 0 => .error (.zeroDimension field owner)
  | .present n => .ok n
  | .absent => .error (.missingDimension field owner)
  | .mismatch m => .error (.badField field (some owner) m)

/-- The sizes that a pool has to have. -/
def sizeOf (t : Document.Table) (owner : String) : Setup PoolSize := do
  let queue ← dimension t "queue_size" owner
  return ⟨queue, ← dimension t "num_threads" owner⟩

/-- The report on a pool. -/
def poolReport (severity : Severity) (message : String)
    (fields : List (String × FieldValue)) (size : PoolSize) : Event :=
  .about .pools severity message
    (fields ++ [("queue_size", .unsigned size.queue), ("num_threads", .unsigned size.threads)])

/-- Sets up the shared pool if the document has one. -/
def setShared (doc : Document.Table) : Plan S P L Unit := do
  match ← Plan.ofSetup (Document.subTable doc "global_thread_pool") with
  | none => return
  | some t =>
    let size ← Plan.ofSetup (sizeOf t "global_thread_pool")
    Plan.ask (.setSharedPool size)
    Plan.report (poolReport .info "global thread pool replaced" [] size)

/-- Makes the pools of the given entries. -/
def make (pools : PoolTable P) : List Document.Table → Plan S P L (PoolTable P)
  | [] => return pools
  | entry :: entries => do
    match Document.entryName? entry with
    | none => .fail (.nameless "thread pools")
    | some name =>
      if (pools.lookup name).isSome then .fail (.repeatedPool name)
      else
        let size ← Plan.ofSetup (sizeOf entry s!"thread pool '{name}'")
        let pool ← Plan.ask (.createPool name size)
        Plan.report (poolReport .debug "thread pool created" [("pool", .text name)] size)
        make (pools ++ [(name, pool)]) entries

/-- Sets up all pools of a document. -/
def ofDocument (doc : Document.Table) : Plan S P L (PoolTable P) := do
  setShared doc
  match ← Plan.ofSetup (Document.tableArray doc "thread_pool") with
  | none => return []
  | some entries => make [] entries

end PoolTable

end LogTopology
