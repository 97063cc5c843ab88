import LogTopology.Proofs.Engine.Calls
import LogTopology.Proofs.Pool.Service
/-!
# A client and a worker

A client makes its calls one after the other, and waits where the queue of the pool is full and
where a flush is not done. The worker of the pool takes a job and is done with it at any time in
between (`Turn`), so that many courses are possible. `Does` tells what one turn can do where all
loggers wait for room in the same pool, and every turn brings the end nearer.

An engine by itself is done with every job before anything else happens. That is one of the courses
(`AtRest.exists_turns_of_acts`).

A job acts in one go, when the worker is done with it. The client may log, change levels of loggers
and see the time pass meanwhile, which is nothing that a job sees. Clients that make calls at the
same time are not told of here.
-/

namespace LogTopology

namespace Pool

variable {J : Type} {p : Pool J}

/-- The jobs that were posted and are not done, in order. -/
def pending (p : Pool J) : List J :=
  p.running ++ p.queue

/-- A pool with one worker, which has not left, and room for a job. -/
structure Single (p : Pool J) : Prop where
  worker : p.size.threads = 1
  there : p.gone = 0
  place : 0 < p.size.queue
  busy : p.running.length ≤ 1

namespace Single

/-- A single worker is free when it is at no job. -/
theorem free_iff (h : p.Single) : p.free = true ↔ p.running = [] := by
  rw [Pool.free_iff, h.worker, h.there, ← List.length_eq_zero_iff]
  omega

/-- Whatever jobs it has, as long as no more than one is being run. -/
theorem jobs (h : p.Single) (queue running ran : List J) (busy : running.length ≤ 1) :
    ({ p with queue := queue, running := running, ran := ran } : Pool J).Single :=
  ⟨h.worker, h.there, h.place, busy⟩

end Single

/-- The worker is done with the only job. -/
theorem complete_of_single {job : J} (busy : p.running = [job]) :
    p.complete 0 = { p with running := [], ran := p.ran ++ [job] } := by
  rw [complete, busy]
  rfl

end Pool

namespace Engine

/-! ## A client and a worker -/

/-- The ledger of an engine, the calls that a client still has to make, and whether it waits for a
flush. -/
structure Traffic extends Ledger where
  calls : List Call
  waits : Bool

/-- What happens next. -/
inductive Turn where
  /-- The client makes a call. -/
  | call
  /-- The worker takes a job. -/
  | take
  /-- The worker is done with the job it took. -/
  | finish
  deriving DecidableEq, Repr

namespace Traffic

/-- Makes a call, if its job finds room. -/
def call? (s : Traffic) (c : Call) (calls : List Call) : Option Traffic :=
  match s.engine.job? c with
  | none => some ⟨⟨s.engine.adjust c, s.lines⟩, calls, false⟩
  | some (l, job) =>
    match l.dispatch with
    | .direct => some ⟨s.run job, calls, false⟩
    | .pooled pool own =>
      (s.engine.post? pool job (if job.isFlush then .block else own)).map fun e =>
        ⟨⟨e, s.lines⟩, calls, job.isFlush⟩

/-- What a turn makes of the traffic, if it is possible. A client that waits for a flush makes no
calls. -/
def turn? (pool : Nat) (s : Traffic) : Turn → Option Traffic
  | .call =>
    match s.waits, s.calls with
    | false, c :: calls => s.call? c calls
    | _, _ => none
  | .take => do
    let (_, p) ← (← s.engine.pools[pool]?).take?
    return { s with engine := s.engine.setPool pool p }
  | .finish => do
    let p ← s.engine.pools[pool]?
    let job ← p.running[0]?
    let t := s.run job
    return ⟨{ t with engine := t.engine.setPool pool (p.complete 0) }, s.calls,
      s.waits && !job.isFlush⟩

/-- Turns that are all possible, one after the other. -/
def turns? (pool : Nat) (s : Traffic) (turns : List Turn) : Option Traffic :=
  turns.foldlM (turn? pool) s

/-- A client that has nothing more to do. -/
def done (s : Traffic) : Prop :=
  s.calls = [] ∧ s.waits = false

/-- A client and a worker before the first call. -/
def start (e : Engine) (calls : List Call) : Traffic :=
  ⟨⟨e, []⟩, calls, false⟩

variable {pool : Nat} {p p' : Pool Job} {s s' : Traffic} {a : Turn} {c : Call}

/-! ## What a turn can do -/

/-- What a turn does where all calls are of loggers that wait for room in a pool. -/
inductive Does (pool : Nat) (p : Pool Job) (s : Traffic) : Turn → Pool Job → Traffic → Prop where
  | adjust (c : Call) (calls : List Call) (ready : s.waits = false) (rest : s.calls = c :: calls)
      (jobless : s.engine.job? c = none) :
      Does pool p s .call p ⟨⟨s.engine.adjust c, s.lines⟩, calls, false⟩
  | post (c : Call) (calls : List Call) (l : LoggerState) (job : Job) (ready : s.waits = false)
      (rest : s.calls = c :: calls) (asks : s.engine.job? c = some (l, job))
      (waits : l.dispatch = .pooled pool .block) (room : p.queue.length < p.size.queue) :
      Does pool p s .call { p with queue := p.queue ++ [job] }
        ⟨⟨s.engine.setPool pool { p with queue := p.queue ++ [job] }, s.lines⟩, calls, job.isFlush⟩
  | take (job : Job) (rest : List Job) (queue : p.queue = job :: rest) (idle : p.running = []) :
      Does pool p s .take { p with queue := rest, running := [job] }
        { s with engine := s.engine.setPool pool { p with queue := rest, running := [job] } }
  | finish (job : Job) (busy : p.running = [job]) :
      Does pool p s .finish { p with running := [], ran := p.ran ++ [job] }
        ⟨⟨(s.engine.run job).setPool pool { p with running := [], ran := p.ran ++ [job] },
          s.lines ++ s.engine.deliveries job⟩, s.calls, s.waits && !job.isFlush⟩

/-- A call of a logger that waits for room adjusts the engine or posts its job. -/
theorem does_of_call? {calls : List Call} (here : s.engine.pools[pool]? = some p)
    (ready : s.waits = false) (rest : s.calls = c :: calls) (bound : s.engine.bound pool c = true)
    (h : s.call? c calls = some s') : ∃ p', Does pool p s .call p' s' := by
  rw [call?] at h
  cases asks : s.engine.job? c with
  | none =>
    rw [asks] at h
    cases h
    exact ⟨p, .adjust c calls ready rest asks⟩
  | some asked =>
    obtain ⟨l, job⟩ := asked
    have waits := (asks_of_job? asks).dispatch_eq bound
    have policy : (if job.isFlush then OverflowPolicy.block else .block) = .block := by simp
    rw [asks] at h
    dsimp only at h
    rw [waits] at h
    dsimp only at h
    rw [policy, Engine.post?, here, Option.bind_eq_bind, Option.bind_some] at h
    rcases Nat.lt_or_ge p.queue.length p.size.queue with room | full
    · rw [Pool.post?_of_room room] at h
      cases h
      exact ⟨_, .post c calls l job ready rest asks waits room⟩
    · rw [Pool.post?_block_of_full full] at h
      cases h

/-- Whatever happens next is one of the turns. -/
theorem does_of_turn? (here : s.engine.pools[pool]? = some p) (single : p.Single)
    (bound : ∀ c ∈ s.calls, s.engine.bound pool c = true) (h : s.turn? pool a = some s') :
    ∃ p', Does pool p s a p' s' := by
  cases a with
  | call =>
    rw [turn?] at h
    split at h
    · rename_i c calls ready rest
      exact does_of_call? here ready rest (bound c (by simp [rest])) h
    · cases h
  | take =>
    rw [turn?, here, Option.bind_eq_bind, Option.bind_some] at h
    obtain ⟨⟨job, q⟩, taken, same⟩ := Option.bind_eq_some_iff.mp h
    obtain ⟨rest, queue, free, rfl⟩ := Pool.take?_eq_some.mp taken
    have idle := single.free_iff.mp free
    rw [idle] at same
    cases same
    exact ⟨_, .take job rest queue idle⟩
  | finish =>
    rw [turn?, here, Option.bind_eq_bind, Option.bind_some] at h
    obtain ⟨job, first, same⟩ := Option.bind_eq_some_iff.mp h
    obtain ⟨busy, first⟩ := List.getElem?_eq_some_iff.mp first
    obtain ⟨only, -⟩ := Pool.Service.eraseIdx_of_single single.busy busy
    rw [first] at only
    rw [Pool.complete_of_single only] at same
    cases same
    exact ⟨_, .finish job only⟩

/-- What a turn can do is what it does. -/
theorem Does.turn?_eq (does : Does pool p s a p' s') (here : s.engine.pools[pool]? = some p)
    (single : p.Single) : s.turn? pool a = some s' := by
  cases does with
  | adjust c calls ready rest jobless => simp [turn?, call?, ready, rest, jobless]
  | post c calls l job ready rest asks waits room =>
    simp [turn?, call?, ready, rest, asks, waits, Engine.post?, here, Pool.post?_of_room room]
  | take job rest queue idle =>
    have taken := Pool.take?_eq_some.mpr ⟨rest, queue, single.free_iff.mpr idle, rfl⟩
    simp [turn?, here, taken, idle]
  | finish job busy => simp [turn?, here, busy, Pool.complete_of_single busy, Ledger.run]

/-- How much there is left to do. -/
def remaining (p : Pool Job) (s : Traffic) : Nat :=
  3 * s.calls.length + 2 * p.queue.length + p.running.length

/-- Which pool a call waits for depends on the ways of delivery alone. -/
theorem bound_congr {e e' : Engine}
    (same : e'.loggers.map LoggerState.dispatch = e.loggers.map LoggerState.dispatch) (c : Call) :
    e'.bound pool c = e.bound pool c := by
  rw [Engine.bound, Engine.bound]
  cases c.logger? with
  | none => rfl
  | some logger =>
    rw [Option.all_some, Option.all_some, ← List.getElem?_map, same, List.getElem?_map]

/-- No turn binds loggers to other pools. -/
theorem Does.dispatch_eq (does : Does pool p s a p' s') :
    s'.engine.loggers.map LoggerState.dispatch = s.engine.loggers.map LoggerState.dispatch := by
  cases does with
  | adjust c => exact dispatch_adjust s.engine c
  | post | take => rfl
  | finish job => exact congrArg _ (stays_run s.engine job).loggers

/-- A turn leaves the calls that are still to be made in their order. -/
theorem Does.calls_suffix (does : Does pool p s a p' s') : s'.calls <:+ s.calls := by
  cases does with
  | adjust c calls _ rest | post c calls _ _ _ rest =>
    rw [rest]
    exact List.suffix_cons c calls
  | take | finish => exact List.suffix_rfl

/-- Every turn brings the end nearer. -/
theorem Does.remaining_lt (does : Does pool p s a p' s') : remaining p' s' < remaining p s := by
  unfold remaining
  cases does with
  | adjust c calls _ rest =>
    rw [rest, List.length_cons]
    dsimp only
    omega
  | post c calls _ job _ rest =>
    rw [rest, List.length_cons, List.length_append, List.length_singleton]
    dsimp only
    omega
  | take job rest queue idle =>
    have length : p.queue.length = rest.length + 1 := by simp [queue]
    show 3 * s.calls.length + 2 * rest.length + 1 < _
    omega
  | finish job busy =>
    rw [busy]
    simp

/-! ## The engine's own way -/

/-- An open pool with one worker where nothing is to be done. -/
structure AtRest (pool : Nat) (p : Pool Job) (e : Engine) : Prop where
  here : e.pools[pool]? = some p
  single : p.Single
  idle : p.pending = []
  held : p.closed = false

/-- A pool at rest has room for a job. -/
theorem AtRest.room {e : Engine} (h : AtRest pool p e) : p.queue.length < p.size.queue := by
  rw [(List.append_eq_nil_iff.mp h.idle).2]
  exact h.single.place

/-- A job that finds the worker idle is done before the post is over. -/
theorem AtRest.post_eq {e : Engine} {job : Job} (h : AtRest pool p e)
    (passes : ∀ d : Engine, d.holdsUp job = false) :
    e.post pool job .block = (e.run job).setPool pool { p with ran := p.ran ++ [job] } := by
  obtain ⟨running, queue⟩ := List.append_eq_nil_iff.mp h.idle
  have posted : e.post? pool job .block = some (e.setPool pool { p with queue := [job] }) := by
    rw [Engine.post?, h.here, Option.bind_eq_bind, Option.bind_some,
      Pool.post?_of_room h.room, queue]
    rfl
  have done : (e.setPool pool { p with queue := [job] }).work? pool =
      some ((e.run job).setPool pool { p with ran := p.ran ++ [job] }) := by
    have free : ({ p with queue := [job] } : Pool Job).free = true := h.single.free_iff.mpr running
    rw [work?, getElem?_setPool h.here, Option.bind_eq_bind, Option.bind_some,
      Pool.take?_eq_some.mpr ⟨[], rfl, free, rfl⟩]
    dsimp only
    rw [passes, running, run_setPool, queue]
    simp [Pool.complete, setPool_setPool]
  have waits : ((e.run job).setPool pool { p with ran := p.ran ++ [job] }).work? pool = none := by
    have here := getElem?_pools_run h.here job
    rw [work?, getElem?_setPool here, Option.bind_eq_bind, Option.bind_some]
    simp [Pool.take?, Pool.leave?, queue, h.held]
  rw [Engine.post, posted]
  dsimp only
  rw [settleAll, getElem?_setPool h.here, Option.map_some, Option.getD_some, h.single.worker]
  show settle pool (1 + 1) _ = _
  rw [settle, done]
  dsimp only
  rw [settle, waits]

/-- A job that is posted to an idle worker is taken and done in three turns. -/
theorem AtRest.turns_of_asks {e : Engine} {l : LoggerState} {job : Job}
    (h : AtRest pool p e) (bound : e.bound pool c = true) (asks : e.job? c = some (l, job))
    (lines : List Delivery) (calls : List Call) :
    turns? pool ⟨⟨e, lines⟩, c :: calls, false⟩ [.call, .take, .finish] =
      some ⟨⟨(e.run job).setPool pool { p with ran := p.ran ++ [job] },
        lines ++ e.deliveries job⟩, calls, false⟩ := by
  obtain ⟨running, queue⟩ := List.append_eq_nil_iff.mp h.idle
  have free : ({ p with queue := [job] } : Pool Job).free = true := h.single.free_iff.mpr running
  have call : turn? pool ⟨⟨e, lines⟩, c :: calls, false⟩ .call =
      some ⟨⟨e.setPool pool { p with queue := [job] }, lines⟩, calls, job.isFlush⟩ := by
    simp only [turn?, call?, asks, (asks_of_job? asks).dispatch_eq bound, Engine.post?, h.here]
    simp [Pool.post?_of_room h.room, queue]
  have take : turn? pool ⟨⟨e.setPool pool { p with queue := [job] }, lines⟩, calls, job.isFlush⟩
      .take = some ⟨⟨e.setPool pool { p with queue := [], running := [job] }, lines⟩, calls,
        job.isFlush⟩ := by
    rw [turn?, getElem?_setPool h.here, Option.bind_eq_bind, Option.bind_some,
      Pool.take?_eq_some.mpr ⟨[], rfl, free, rfl⟩]
    simp [setPool_setPool, running]
  have finish : turn? pool ⟨⟨e.setPool pool { p with queue := [], running := [job] }, lines⟩, calls,
      job.isFlush⟩ .finish = some ⟨⟨(e.run job).setPool pool { p with ran := p.ran ++ [job] },
        lines ++ e.deliveries job⟩, calls, false⟩ := by
    rw [turn?, getElem?_setPool h.here, Option.bind_eq_bind, Option.bind_some]
    simp [Ledger.run, run_setPool, setPool_setPool, Pool.complete, running, queue,
      (setPool_alike e pool _).deliveries_eq]
  simp [turns?, call, take, finish]

/-- What a call does in the way of the engine is done in turns, after which the pool is at rest
again. -/
theorem AtRest.exists_turns {e : Engine} (h : AtRest pool p e)
    (bound : e.bound pool c = true) (lines : List Delivery) (calls : List Call) :
    ∃ turns lines' p', AtRest pool p' (e.act c) ∧
      turns? pool ⟨⟨e, lines⟩, c :: calls, false⟩ turns = some ⟨⟨e.act c, lines'⟩, calls, false⟩ ∧
      (e.act c).loggers.map LoggerState.dispatch = e.loggers.map LoggerState.dispatch := by
  -- A call without a job is done at once; the job of another is taken and finished in two turns.
  cases asks : e.job? c with
  | none =>
    have acts : e.act c = e.adjust c := by
      rw [act_eq, asks]
      rfl
    rw [acts]
    refine ⟨[.call], lines, p, ⟨?_, h.single, h.idle, h.held⟩, ?_, dispatch_adjust e c⟩
    · rw [pools_adjust]
      exact h.here
    · simp [turns?, turn?, call?, asks]
  | some asked =>
    obtain ⟨l, job⟩ := asked
    have policy : (if job.isFlush then some OverflowPolicy.block else none).getD .block =
        .block := by split <;> rfl
    have here := getElem?_pools_run h.here job
    have acts : e.act c = (e.run job).setPool pool { p with ran := p.ran ++ [job] } := by
      rw [act_eq, asks, Option.elim_some]
      dsimp only
      rw [dispatch, (asks_of_job? asks).dispatch_eq bound]
      dsimp only
      rw [policy, h.post_eq fun _ => (asks_of_job? asks).holdsUp]
    rw [acts]
    refine ⟨[.call, .take, .finish], lines ++ e.deliveries job, { p with ran := p.ran ++ [job] },
      ⟨getElem?_setPool here _, ?_, h.idle, h.held⟩, h.turns_of_asks bound asks lines calls, ?_⟩
    · exact h.single.jobs p.queue p.running _ h.single.busy
    · exact congrArg _ (stays_run e job).loggers

/-- The way of the engine, in which the worker is done with every job before anything else happens,
is one that a client and a worker can take. -/
theorem AtRest.exists_turns_of_acts {e : Engine} {calls : List Call} (h : AtRest pool p e)
    (bound : ∀ c ∈ calls, e.bound pool c = true) (lines : List Delivery) :
    ∃ turns s, turns? pool ⟨⟨e, lines⟩, calls, false⟩ turns = some s ∧ s.done ∧
      s.engine = calls.foldl act e := by
  induction calls generalizing e p lines with
  | nil => exact ⟨[], _, rfl, ⟨rfl, rfl⟩, rfl⟩
  | cons c calls ih =>
    obtain ⟨hc, bound⟩ := List.forall_mem_cons.mp bound
    obtain ⟨first, lines', p', rest, happens, same⟩ := h.exists_turns hc lines calls
    obtain ⟨turns, s, run, done, engine⟩ :=
      ih rest (fun c mem => (bound_congr same c).trans (bound c mem)) lines'
    refine ⟨first ++ turns, s, ?_, done, engine⟩
    rw [turns?, List.foldlM_append]
    exact Option.bind_eq_some_iff.mpr ⟨_, happens, run⟩

end Traffic

end Engine

end LogTopology
