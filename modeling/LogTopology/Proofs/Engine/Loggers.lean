import LogTopology.Proofs.Engine.Calls
/-!
# What happens to loggers

Delivering changes no logger, whoever runs the jobs and whatever else waits in the pool: log calls
and flushes leave all loggers as they are (`loggers_dispatch`). So the level of a logger is the one
that was set last, or the one that it had before (`level_act`).

A client that has to wait for room lets the worker go on in the meantime, and the worker may run
jobs of other loggers then. These change sinks and what is behind them, so the engine after a log
call is not the one before; only its list of loggers is.
-/

namespace LogTopology.Engine

variable {e d : Engine} {pool logger : Nat}

/-- The worker changes no logger. -/
theorem loggers_work? (h : e.work? pool = some d) : d.loggers = e.loggers := by
  obtain ⟨p, -, goesOn⟩ := Option.bind_eq_some_iff.mp h
  split at goesOn
  next job p' taken =>
    split at goesOn
    · cases goesOn
      rfl
    · cases goesOn
      exact (stays_run e job).loggers
  next =>
    obtain ⟨p', -, left⟩ := Option.bind_eq_some_iff.mp goesOn
    cases left
    rfl

/-- However long the worker goes on, it changes no logger. -/
theorem loggers_settle (pool count : Nat) (e : Engine) :
    (settle pool count e).loggers = e.loggers := by
  induction count generalizing e with
  | zero => rfl
  | succ count ih =>
    rw [settle]
    split
    next d works => rw [ih, loggers_work? works]
    next => rfl

/-- Posting a job changes no logger, also where it has to wait for the worker. -/
theorem loggers_post (e : Engine) (pool : Nat) (job : Job) (policy : OverflowPolicy) :
    (e.post pool job policy).loggers = e.loggers := by
  rw [post]
  split
  next d posted =>
    rw [settleAll, loggers_settle]
    obtain ⟨p, -, goesOn⟩ := Option.bind_eq_some_iff.mp posted
    obtain ⟨⟨p', _⟩, -, added⟩ := Option.bind_eq_some_iff.mp goesOn
    cases added
    rfl
  next => rfl

/-- Handing a job on changes no logger. -/
theorem loggers_dispatch (e : Engine) (l : LoggerState) (job : Job)
    (policy : Option OverflowPolicy) : (e.dispatch l job policy).loggers = e.loggers := by
  rw [dispatch]
  split
  · exact (stays_run e job).loggers
  · exact loggers_post e _ job _

/-- Logging changes no logger, the one that logs included. -/
theorem loggers_log (e : Engine) (logger : Nat) (level : Level) (payload : String) :
    (e.log logger level payload).loggers = e.loggers := by
  rw [log]
  split
  · rfl
  · split
    · exact loggers_dispatch ..
    · rfl

/-- Flushing a logger changes no logger. -/
theorem loggers_flush (e : Engine) (logger : Nat) : (e.flush logger).loggers = e.loggers := by
  rw [flush]
  split
  · rfl
  · exact loggers_dispatch ..

/-- Flushing loggers in turn changes no logger. -/
theorem loggers_foldl_flush (e : Engine) (loggers : List Nat) :
    (loggers.foldl flush e).loggers = e.loggers := by
  induction loggers generalizing e with
  | nil => rfl
  | cons logger loggers ih => exact (ih _).trans (loggers_flush e logger)

/-! ## Levels -/

/-- The level of a logger after a call, given the one before. -/
def levelAfter (logger : Nat) (level : Level) : Call → Level
  | .setLevel other next => if other = logger then next else level
  | _ => level

/-- A call changes the level of a logger only if it sets it. -/
theorem level_act (e : Engine) (logger : Nat) (c : Call) :
    (e.act c).loggers[logger]?.map LoggerState.level =
      e.loggers[logger]?.map fun l => levelAfter logger l.level c := by
  cases c with
  | log other level payload => rw [act, loggers_log]; rfl
  | flush other => rw [act, loggers_flush]; rfl
  | setLevel other level =>
    show (e.loggers.modify other _)[logger]?.map _ = _
    rw [List.getElem?_modify]
    by_cases same : other = logger <;> cases e.loggers[logger]? <;> simp [levelAfter, same]
  | setPattern other source =>
    show (e.adjust (.setPattern other source)).loggers[logger]?.map _ = _
    rw [adjust]
    cases Pattern.compile source with
    | error => rfl
    | ok p =>
      show (e.loggers.modify other _)[logger]?.map _ = _
      rw [List.getElem?_modify]
      by_cases same : other = logger <;> cases e.loggers[logger]? <;> simp [levelAfter, same]
  | setSinkLevel | clock => rfl

end LogTopology.Engine
