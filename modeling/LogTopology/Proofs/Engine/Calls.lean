import LogTopology.Engine.Handles
import LogTopology.Proofs.Engine.Alike
/-!
# Calls of a client

What a client does with loggers, sinks and the clock (`Call`). A call either asks a logger for a job
(`Asks`) or adjusts the engine (`Adjusts`). When all loggers deliver at once the job is run where the
call is made; a `Ledger` keeps an engine together with the lines that its leaves were handed.

An engine mirrors another one when it has the same time and the same loggers, which deliver at once
(`Mirrors`). In both of them a call has the same job, with the same record, and adjustments keep
this. Jobs see an adjustment only if it changes a pattern or the level of a sink
(`adjust_alike`).

The calls that hand a job to a logger are the ones that a pool may delay; an adjustment takes effect
where it is made. `make_eq` says so for an engine whose loggers deliver at once, and it is what a
schedule of a pool is compared with: the jobs of the calls, in some later order of events, must come
to the same ledger (`Agree`).
-/

namespace LogTopology

/-- Whether a job flushes. -/
def Job.isFlush : Job → Bool
  | .flush _ => true
  | _ => false

/-- The same logger, delivering at once. -/
def LoggerState.atOnce (l : LoggerState) : LoggerState :=
  { l with dispatch := .direct }

namespace Engine

/-! ## Calls -/

/-- What a client does. -/
inductive Call where
  | log (logger : Nat) (level : Level) (payload : String)
  | flush (logger : Nat)
  | setLevel (logger : Nat) (level : Level)
  | setPattern (logger : Nat) (source : String)
  | setSinkLevel (sink : Nat) (level : Level)
  /-- The clock shows another time. -/
  | clock (now : Calendar.Moment)
  deriving DecidableEq, Repr

namespace Call

/-- The logger whose sinks a call is for. -/
def logger? : Call → Option Nat
  | log logger _ _ | flush logger => some logger
  | _ => none

/-- Whether a call changes what jobs see. -/
def alters : Call → Bool
  | setPattern _ _ | setSinkLevel _ _ => true
  | _ => false

/-- Whether nothing waits after a call, given whether nothing did before. -/
def drains (drained : Bool) : Call → Bool
  | log _ _ _ => false
  | flush _ => true
  | _ => drained

/-- Whether what jobs see is changed only where nothing waits. -/
def orderly (drained : Bool) : List Call → Bool
  | [] => true
  | c :: calls => (!c.alters || drained) && orderly (c.drains drained) calls

end Call

/-- The logger that a call hands a job to, and the job. -/
def job? (e : Engine) : Call → Option (LoggerState × Job)
  | .log logger level payload => do
    let l ← e.loggers[logger]?
    if l.level.allows level then some (l, .write logger (e.recordOf l level payload)) else none
  | .flush logger => e.loggers[logger]?.map fun l => (l, .flush logger)
  | _ => none

/-- What a call without a job does. -/
def adjust (e : Engine) : Call → Engine
  | .setLevel logger level => e.editLogger logger fun l => { l with level := level }
  | .setPattern logger source =>
    match Pattern.compile source with
    | .ok p => e.editLogger logger fun l => { l with pattern := p }
    | .error _ => e
  | .setSinkLevel sink level => e.setSinkLevel sink level
  | .clock now => { e with world := { e.world with now := now } }
  | _ => e

/-- Makes a call in the way of the engine. -/
def act (e : Engine) : Call → Engine
  | .log logger level payload => e.log logger level payload
  | .flush logger => e.flush logger
  | c => e.adjust c

/-- Whether the logger that a call writes to or flushes waits for room in a pool. -/
def bound (e : Engine) (pool : Nat) (c : Call) : Bool :=
  c.logger?.all fun logger =>
    e.loggers[logger]?.map LoggerState.dispatch = some (.pooled pool .block)

/-! ## Loggers that deliver at once -/

/-- The same engine, in which all loggers deliver at once. -/
def atOnce (e : Engine) : Engine :=
  { e with loggers := e.loggers.map LoggerState.atOnce }

/-- An engine, and the lines that were handed to its leaves, in order. -/
structure Ledger where
  engine : Engine
  lines : List Delivery

namespace Ledger

/-- A job is done. -/
def run (t : Ledger) (job : Job) : Ledger :=
  ⟨t.engine.run job, t.lines ++ t.engine.deliveries job⟩

/-- A call is made in an engine whose loggers deliver at once. -/
def make (t : Ledger) (c : Call) : Ledger :=
  ⟨t.engine.act c, t.lines ++ (t.engine.job? c).elim [] fun (_, job) => t.engine.deliveries job⟩

end Ledger

variable {e d : Engine} {c : Call} {l : LoggerState} {job : Job}

/-! ## Jobs of calls -/

/-- What a call can ask of a logger. -/
inductive Asks (e : Engine) (l : LoggerState) : Call → Job → Prop where
  | log (logger : Nat) (level : Level) (payload : String) (here : e.loggers[logger]? = some l)
      (allowed : l.level.allows level = true) :
      Asks e l (.log logger level payload) (.write logger (e.recordOf l level payload))
  | flush (logger : Nat) (here : e.loggers[logger]? = some l) :
      Asks e l (.flush logger) (.flush logger)

/-- The job of a call is what the call asks of its logger. -/
theorem asks_of_job? (h : e.job? c = some (l, job)) : Asks e l c job := by
  cases c with
  | log logger level payload =>
    obtain ⟨k, here, allowed⟩ := Option.bind_eq_some_iff.mp h
    split at allowed
    · rename_i allows
      cases allowed
      exact .log logger level payload here allows
    · cases allowed
  | flush logger =>
    obtain ⟨k, here, same⟩ := Option.map_eq_some_iff.mp h
    cases same
    exact .flush logger here
  | setLevel | setPattern | setSinkLevel | clock => cases h

/-- No gate comes of a call. -/
theorem Asks.holdsUp (h : Asks e l c job) : d.holdsUp job = false := by
  cases h <;> rfl

/-- A call that leaves nothing waiting either has no job or flushes. -/
theorem Asks.isFlush_of_drains (h : Asks e l c job) {drained : Bool}
    (drains : c.drains drained = true) : job.isFlush = true := by
  cases h with
  | log => cases drains
  | flush => rfl

/-- A logger whose call is bound waits for room. -/
theorem Asks.dispatch_eq (h : Asks e l c job) {pool : Nat} (bound : e.bound pool c = true) :
    l.dispatch = .pooled pool .block := by
  cases h with
  | log _ _ _ here | flush _ here =>
    rw [Engine.bound, Call.logger?, Option.all_some, here] at bound
    simpa using bound

/-! ## Adjustments -/

/-- What an adjustment can do. -/
inductive Adjusts (c : Call) : (Engine → Engine) → Prop where
  | nothing : Adjusts c id
  | logger (logger : Nat) (edit : LoggerState → LoggerState)
      (seen : Pattern × List SinkRef → Pattern × List SinkRef)
      (core : ∀ l, (edit l).core = seen l.core) (unseen : c.alters = false → seen = id)
      (atOnce : ∀ l, (edit l).atOnce = edit l.atOnce)
      (dispatch : ∀ l, (edit l).dispatch = l.dispatch) :
      Adjusts c fun e => e.editLogger logger edit
  | sink (sink : Nat) (level : Level) (alters : c.alters = true) :
      Adjusts c fun e => e.setSinkLevel sink level
  | clock (now : Calendar.Moment) :
      Adjusts c fun e => { e with world := { e.world with now := now } }

theorem exists_adjusts (c : Call) : ∃ f, Adjusts c f ∧ ∀ e : Engine, e.adjust c = f e := by
  cases c with
  | log | flush => exact ⟨id, .nothing, fun _ => rfl⟩
  | setLevel logger level =>
    exact ⟨_, .logger logger (fun l => { l with level := level }) id (fun _ => rfl) (fun _ => rfl)
      (fun _ => rfl) (fun _ => rfl), fun _ => rfl⟩
  | setPattern logger source =>
    cases compiled : Pattern.compile source with
    | error => exact ⟨id, .nothing, fun e => by rw [adjust, compiled]; rfl⟩
    | ok p =>
      exact ⟨_, .logger logger (fun l => { l with pattern := p }) (fun core => (p, core.2))
        (fun _ => rfl) nofun (fun _ => rfl) (fun _ => rfl), fun e => by rw [adjust, compiled]⟩
  | setSinkLevel sink level => exact ⟨_, .sink sink level rfl, fun _ => rfl⟩
  | clock now => exact ⟨_, .clock now, fun _ => rfl⟩

/-- A session gives a logger another pattern in this way. -/
theorem setPattern_eq_adjust (s : Session) (logger : Nat) (source : String) :
    (s.setPattern logger source).2 =
      s.withEngine (s.engine.adjust (.setPattern logger source)) := by
  rw [Session.setPattern, adjust]
  cases Pattern.compile source <;> rfl

/-- An edit of one element that a function sees as an edit of its value. -/
theorem map_modify {α β : Type} {f : α → β} {g : α → α} {g' : β → β} (h : ∀ a, f (g a) = g' (f a))
    (l : List α) (i : Nat) : (l.modify i g).map f = (l.map f).modify i g' := by
  induction l generalizing i with
  | nil => cases i <;> rfl
  | cons a l ih =>
    cases i with
    | zero => simp [h]
    | succ i => simp [ih]

/-- An edit of one element that a function does not see. -/
theorem map_modify_of_unseen {α β : Type} {f : α → β} {g : α → α} (h : ∀ a, f (g a) = f a)
    (l : List α) (i : Nat) : (l.modify i g).map f = l.map f := by
  have same : ∀ a, f (g a) = id (f a) := h
  rw [map_modify same, List.modify_id]

/-- An adjustment keeps engines alike. -/
theorem Alike.adjust (h : Alike e d) (c : Call) : Alike (e.adjust c) (d.adjust c) := by
  obtain ⟨f, adjusts, does⟩ := exists_adjusts c
  rw [does, does]
  cases adjusts with
  | nothing => exact h
  | logger logger edit seen core =>
    refine ⟨h.world, h.sinks, ?_⟩
    show (e.loggers.modify logger edit).map _ = (d.loggers.modify logger edit).map _
    rw [map_modify core, map_modify core, h.cores]
  | sink sink level =>
    refine ⟨h.world, ?_, h.cores⟩
    show e.sinks.modify sink _ = d.sinks.modify sink _
    rw [h.sinks]
  | clock now => exact ⟨h.world, h.sinks, h.cores⟩

/-- Jobs do not see an adjustment that changes neither patterns nor the levels of sinks. -/
theorem adjust_alike (e : Engine) (h : c.alters = false) : Alike (e.adjust c) e := by
  obtain ⟨f, adjusts, does⟩ := exists_adjusts c
  rw [does]
  cases adjusts with
  | nothing => exact .refl e
  | logger logger edit seen core unseen =>
    rw [unseen h] at core
    exact ⟨rfl, rfl, map_modify_of_unseen core e.loggers logger⟩
  | sink sink level alters =>
    rw [h] at alters
    cases alters
  | clock now => exact ⟨rfl, rfl, rfl⟩

/-- Adjustments do nothing to the pools. -/
theorem pools_adjust (e : Engine) (c : Call) : (e.adjust c).pools = e.pools := by
  obtain ⟨f, adjusts, does⟩ := exists_adjusts c
  rw [does]
  cases adjusts <;> rfl

/-- Adjustments do not bind loggers to other pools. -/
theorem dispatch_adjust (e : Engine) (c : Call) :
    (e.adjust c).loggers.map LoggerState.dispatch = e.loggers.map LoggerState.dispatch := by
  obtain ⟨f, adjusts, does⟩ := exists_adjusts c
  rw [does]
  cases adjusts with
  | logger logger edit _ _ _ _ dispatch => exact map_modify_of_unseen dispatch e.loggers logger
  | nothing | sink | clock => rfl

/-! ## The same loggers, delivering at once -/

/-- An engine that has the time and the loggers of another one, which deliver at once. -/
structure Mirrors (e d : Engine) : Prop where
  now : d.world.now = e.world.now
  loggers : d.loggers = e.loggers.map LoggerState.atOnce

/-- An engine is mirrored by the one whose loggers deliver at once. -/
theorem mirrors_atOnce (e : Engine) : Mirrors e e.atOnce :=
  ⟨rfl, rfl⟩

/-- Jobs cannot tell an engine from the one whose loggers deliver at once. -/
theorem alike_atOnce (e : Engine) : Alike e e.atOnce := by
  refine ⟨rfl, rfl, ?_⟩
  rw [atOnce, List.map_map]
  rfl

/-- What changes neither loggers nor time keeps an engine mirrored. -/
theorem Mirrors.of_stays {e' d' : Engine} (h : Mirrors e d) (left : Stays e e')
    (right : Stays d d') : Mirrors e' d' :=
  ⟨by rw [right.now, left.now, h.now], by rw [right.loggers, left.loggers, h.loggers]⟩

/-- Putting another pool into an engine keeps it mirrored. -/
theorem Mirrors.setPool (h : Mirrors e d) (pool : Nat) (p : Pool Job) :
    Mirrors (e.setPool pool p) d :=
  ⟨h.now, h.loggers⟩

/-- An adjustment of both engines keeps the one mirrored by the other. -/
theorem Mirrors.adjust (h : Mirrors e d) (c : Call) : Mirrors (e.adjust c) (d.adjust c) := by
  obtain ⟨f, adjusts, does⟩ := exists_adjusts c
  rw [does, does]
  cases adjusts with
  | nothing => exact h
  | logger logger edit _ _ _ atOnce =>
    refine ⟨h.now, ?_⟩
    show d.loggers.modify logger edit = (e.loggers.modify logger edit).map _
    rw [map_modify atOnce, h.loggers]
  | sink => exact ⟨h.now, h.loggers⟩
  | clock => exact ⟨rfl, h.loggers⟩

/-- A call has the same job, with the same record. -/
theorem Mirrors.job?_eq (h : Mirrors e d) (c : Call) :
    d.job? c = (e.job? c).map fun (l, job) => (l.atOnce, job) := by
  have logger (i : Nat) : d.loggers[i]? = e.loggers[i]?.map LoggerState.atOnce := by
    rw [h.loggers, List.getElem?_map]
  cases c with
  | log i level payload =>
    rw [job?, job?, logger]
    cases e.loggers[i]? with
    | none => rfl
    | some l =>
      have record : d.recordOf l.atOnce level payload = e.recordOf l level payload := by
        rw [recordOf, recordOf, h.now]
        rfl
      simp only [Option.map_some, Option.bind_eq_bind, Option.bind_some, record]
      show (if l.level.allows level = true then _ else _) = _
      split <;> rfl
  | flush i =>
    rw [job?, job?, logger]
    cases e.loggers[i]? <;> rfl
  | setLevel | setPattern | setSinkLevel | clock => rfl

/-- What a call does is decided by its job. -/
theorem act_eq (e : Engine) (c : Call) :
    e.act c = (e.job? c).elim (e.adjust c) fun (l, job) =>
      e.dispatch l job (if job.isFlush then some .block else none) := by
  cases c with
  | log i level payload =>
    rw [act, log, job?]
    cases e.loggers[i]? with
    | none => rfl
    | some l =>
      dsimp only [Option.bind_eq_bind, Option.bind_some]
      split <;> rfl
  | flush i =>
    rw [act, flush, job?]
    cases e.loggers[i]? <;> rfl
  | setLevel | setPattern | setSinkLevel | clock => rfl

/-- A job of a logger that delivers at once is run at once. -/
theorem Mirrors.act_eq (h : Mirrors e d) (c : Call) :
    d.act c = (e.job? c).elim (d.adjust c) fun (_, job) => d.run job := by
  rw [Engine.act_eq, h.job?_eq]
  cases e.job? c <;> rfl

/-! ## Ledgers -/

namespace Ledger

variable {s t u : Ledger} {job : Job}

/-- Jobs are done, one after the other. -/
def runAll (t : Ledger) (jobs : List Job) : Ledger :=
  jobs.foldl run t

/-- Calls are made, one after the other. -/
def makeAll (t : Ledger) (calls : List Call) : Ledger :=
  calls.foldl make t

/-- Ledgers with the same lines and with engines that jobs cannot tell apart. -/
structure Agree (s t : Ledger) : Prop where
  engine : Alike s.engine t.engine
  lines : s.lines = t.lines

theorem Agree.trans (first : Agree s t) (second : Agree t u) : Agree s u :=
  ⟨first.engine.trans second.engine, first.lines.trans second.lines⟩

/-- Ledgers that agree do so after the same job. -/
theorem Agree.run (h : Agree s t) (job : Job) : Agree (s.run job) (t.run job) :=
  ⟨h.engine.run job, by rw [Ledger.run, Ledger.run, h.lines, h.engine.deliveries_eq]⟩

/-- Ledgers that agree do so after the same jobs. -/
theorem Agree.runAll (h : Agree s t) (jobs : List Job) : Agree (s.runAll jobs) (t.runAll jobs) := by
  induction jobs generalizing s t with
  | nil => exact h
  | cons job jobs ih => exact ih (h.run job)

/-- The last of some jobs is done in the ledger that the others have left. -/
theorem runAll_concat (t : Ledger) (jobs : List Job) (job : Job) :
    t.runAll (jobs ++ [job]) = (t.runAll jobs).run job := by
  rw [runAll, List.foldl_append]
  rfl

/-- What comes of calls whose loggers deliver at once. -/
def directly (e : Engine) (calls : List Call) : Ledger :=
  makeAll ⟨e.atOnce, []⟩ calls

/-- Lines that were handed out stay so, whatever is done. -/
theorem lines_foldl {α : Type} {f : Ledger → α → Ledger} (grows : ∀ t a, t.lines <+: (f t a).lines)
    (t : Ledger) (l : List α) : t.lines <+: (l.foldl f t).lines := by
  induction l generalizing t with
  | nil => exact List.prefix_rfl
  | cons a l ih => exact (grows t a).trans (ih _)

/-- Jobs add lines and take none away. -/
theorem lines_runAll (t : Ledger) (jobs : List Job) : t.lines <+: (t.runAll jobs).lines :=
  lines_foldl (fun _ _ => List.prefix_append _ _) t jobs

/-- Calls add lines and take none away. -/
theorem lines_makeAll (t : Ledger) (calls : List Call) : t.lines <+: (t.makeAll calls).lines :=
  lines_foldl (fun _ _ => List.prefix_append _ _) t calls

/-- A call whose logger delivers at once is its job, or an adjustment. -/
theorem make_eq {e : Engine} (h : Mirrors e t.engine) (c : Call) :
    t.make c = (e.job? c).elim ⟨t.engine.adjust c, t.lines⟩ fun (_, job) => t.run job := by
  rw [make, h.act_eq, h.job?_eq]
  cases e.job? c with
  | none =>
    show (⟨_, t.lines ++ []⟩ : Ledger) = _
    rw [List.append_nil]
    rfl
  | some asked => rfl

end Ledger

end Engine

end LogTopology
