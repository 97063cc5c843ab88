import LogTopology.Proofs.Engine.Alike
import LogTopology.Proofs.Pool.Service
/-!
# Clients that share a worker

Any number of clients log through loggers that are bound to one pool with one worker, and flush
them. A job is posted under the policy of its logger, a flush waits for room; a client whose flush
was posted waits until the worker is done with the job, or until the job is discarded for another
one. Posts, the worker and the clients that wait take their turns in any order (`Move`), so that
every course is possible.

Jobs are numbered here so that two flushes of one logger can be told apart; without the numbers all
moves are what the engine itself does (`steps?_shown`). What holds of all courses is `Kept`: the
numbers are in the order of the posts, and the engine is what the jobs that ran have made of it, one
after the other.

A job acts in one go, when the worker is done with it. Which records pass the level of a logger is
left open: any record may be logged.
-/

namespace LogTopology

/-! ## Other names for jobs -/

namespace Pool

variable {J K : Type} {p p' : Pool J} {job : J}

/-- The pool with its jobs under other names. -/
def map (f : J → K) (p : Pool J) : Pool K :=
  ⟨p.size, p.queue.map f, p.running.map f, p.ran.map f, p.overrun, p.closed, p.gone⟩

/-- Posting a job under another name is posting it, with the lost one under its other name. -/
theorem post?_map (f : J → K) (p : Pool J) (job : J) (policy : OverflowPolicy) :
    (p.map f).post? (f job) policy =
      (p.post? job policy).map fun (p', lost) => (p'.map f, lost.map f) := by
  have surplus : (p.map f).surplus = p.surplus := by
    rw [Pool.surplus, Pool.surplus, map, List.length_map]
  unfold post?
  rw [surplus]
  cases p.surplus with
  | zero => simp [map]
  | succ n => cases policy <;> simp [map]

/-- Taking a job under another name is taking it. -/
theorem take?_map (f : J → K) (p : Pool J) :
    (p.map f).take? = p.take?.map fun (job, p') => (f job, p'.map f) := by
  have free : (p.map f).free = p.free := by
    rw [Pool.free, Pool.free, map, List.length_map]
  unfold take?
  rw [free]
  cases queue : p.queue with
  | nil => simp [map, queue]
  | cons job rest => cases p.free <;> simp [map, queue]

/-- Completing a job does not depend on its name. -/
theorem complete_map (f : J → K) (p : Pool J) (i : Nat) :
    (p.map f).complete i = (p.complete i).map f := by
  unfold complete
  rw [show (p.map f).running = p.running.map f from rfl, List.getElem?_map]
  cases p.running[i]? with
  | none => rfl
  | some job => simp [map, List.eraseIdx_eq_take_drop_succ, List.map_take, List.map_drop]

end Pool

namespace Engine

open Pool (Service)

variable {e : Engine} {pool capacity number logger : Nat}

/-- The policy of a logger that is bound to a pool. -/
def policyIn? (e : Engine) (pool logger : Nat) : Option OverflowPolicy :=
  match e.loggers[logger]?.map LoggerState.dispatch with
  | some (.pooled own policy) => if own = pool then some policy else none
  | _ => none

/-- A job with its number among all that are posted. -/
abbrev Numbered := Nat × Job

/-- An engine, a pool with what was posted to it, and the numbers of the flushes that clients wait
for. -/
structure Clients where
  engine : Engine
  service : Service Numbered
  waits : List Nat

/-- What happens next. -/
inductive Move where
  /-- A client logs a record. -/
  | log (logger : Nat) (record : Record)
  /-- A client flushes a logger, and waits from then on. -/
  | flush (logger : Nat)
  /-- The worker takes a job. -/
  | take
  /-- The worker is done with the job it took. -/
  | finish
  /-- The flush with the number returns to its client. -/
  | back (number : Nat)
  deriving DecidableEq

namespace Clients

/-- An engine and a pool with one worker before anything is posted. -/
def start (e : Engine) (capacity : Nat) : Clients :=
  ⟨e, .start (.fresh ⟨capacity, 1⟩), []⟩

/-- The number of the next job. -/
def next (s : Clients) : Nat :=
  s.service.posted.length

/-- Does something at the pool, if it is possible. -/
def atPool? (s : Clients) (act : Pool.Act Numbered) : Option Clients :=
  (s.service.act? act).map fun t => { s with service := t }

/-- Whether a job is done or was discarded. -/
def ended (s : Clients) (number : Nat) : Bool :=
  (s.service.pool.ran ++ s.service.discarded).any fun job => job.1 = number

/-- What a move makes of the clients and the worker, if it is possible. -/
def move? (pool : Nat) (s : Clients) : Move → Option Clients
  | .log logger record => do
    s.atPool? (.post (s.next, .write logger record) (← s.engine.policyIn? pool logger))
  | .flush logger => do
    let _ ← s.engine.policyIn? pool logger
    { s with waits := s.next :: s.waits }.atPool? (.post (s.next, .flush logger) .block)
  | .take => s.atPool? .take
  | .finish => do
    let job ← s.service.pool.running[0]?
    { s with engine := s.engine.run job.2 }.atPool? (.complete 0)
  | .back number =>
    if number ∈ s.waits ∧ s.ended number then some { s with waits := s.waits.erase number } else none

/-- Moves that are all possible, one after the other. -/
def moves? (pool : Nat) (s : Clients) (moves : List Move) : Option Clients :=
  moves.foldlM (move? pool) s

end Clients

variable {s s' : Clients} {job : Job}

/-! ## Jobs in turn -/

/-- The engine after jobs, one after the other. -/
def runAll (e : Engine) (jobs : List Numbered) : Engine :=
  jobs.foldl (fun e job => e.run job.2) e

/-- Jobs are run one after the other. -/
theorem runAll_append (e : Engine) (jobs more : List Numbered) :
    e.runAll (jobs ++ more) = (e.runAll jobs).runAll more :=
  List.foldl_append

/-- Jobs change nothing but the leaves and what they act on. -/
theorem stays_runAll (e : Engine) (jobs : List Numbered) : Stays e (e.runAll jobs) := by
  induction jobs generalizing e with
  | nil => exact .refl e
  | cons job jobs ih => exact (stays_run e job.2).trans (ih _)

/-- No job binds a logger to another pool. -/
theorem policyIn?_runAll (e : Engine) (jobs : List Numbered) (pool logger : Nat) :
    (e.runAll jobs).policyIn? pool logger = e.policyIn? pool logger := by
  rw [policyIn?, policyIn?, (stays_runAll e jobs).loggers]

namespace Clients

/-! ## The engine's own operations -/

/-- The engine with the pool in its place, where jobs have no numbers. -/
def shown (pool : Nat) (s : Clients) : Engine :=
  s.engine.setPool pool (s.service.pool.map Prod.snd)

end Clients

/-- What a move does to an engine; a flush that returns does nothing to it. -/
def step? (pool : Nat) (e : Engine) : Move → Option Engine
  | .log logger record => do
    e.post? pool (.write logger record) (← e.policyIn? pool logger)
  | .flush logger => do
    let _ ← e.policyIn? pool logger
    e.post? pool (.flush logger) .block
  | .take => do
    let (_, p) ← (← e.pools[pool]?).take?
    return e.setPool pool p
  | .finish => do
    let p ← e.pools[pool]?
    let job ← p.running[0]?
    return (e.run job).setPool pool (p.complete 0)
  | .back _ => return e

namespace Clients

/-- The pool that is shown is the clients' own, without the numbers. -/
theorem pools_shown (here : pool < s.engine.pools.length) :
    (s.shown pool).pools[pool]? = some (s.service.pool.map Prod.snd) :=
  List.getElem?_set_self here

/-- A post by a client is the engine's own post, without the number. -/
theorem shown_of_post {n : Nat} {job : Job} {policy : OverflowPolicy}
    (here : pool < s.engine.pools.length)
    (posts : s.atPool? (.post (n, job) policy) = some s') :
    (s.shown pool).post? pool job policy = some (s'.shown pool) := by
  obtain ⟨t, possible, rfl⟩ := Option.map_eq_some_iff.mp posts
  rw [Service.act?] at possible
  split at possible
  · cases possible
  obtain ⟨⟨p, lost⟩, posted, rfl⟩ := Option.map_eq_some_iff.mp possible
  rw [Engine.post?, pools_shown here, Option.bind_eq_bind, Option.bind_some,
    ← show Prod.snd (n, job) = job from rfl, Pool.post?_map, posted]
  simp [shown, setPool_setPool]

/-- Without the numbers of the jobs, a move is what the engine itself does. -/
theorem step?_shown {m : Move} (here : pool < s.engine.pools.length)
    (moves : s.move? pool m = some s') :
    (s.shown pool).step? pool m = some (s'.shown pool) := by
  cases m with
  | log logger record =>
    obtain ⟨policy, bound, moves⟩ := Option.bind_eq_some_iff.mp moves
    exact Option.bind_eq_some_iff.mpr ⟨policy, bound, shown_of_post here moves⟩
  | flush logger =>
    obtain ⟨policy, bound, moves⟩ := Option.bind_eq_some_iff.mp moves
    have posts := shown_of_post (s := { s with waits := s.next :: s.waits }) here moves
    exact Option.bind_eq_some_iff.mpr ⟨policy, bound, posts⟩
  | take =>
    obtain ⟨t, possible, rfl⟩ := Option.map_eq_some_iff.mp moves
    obtain ⟨⟨job, p⟩, taken, rfl⟩ := Option.map_eq_some_iff.mp possible
    rw [step?, pools_shown here, Option.bind_eq_bind, Option.bind_some, Pool.take?_map, taken]
    simp [shown, setPool_setPool]
  | finish =>
    obtain ⟨job, first, moves⟩ := Option.bind_eq_some_iff.mp moves
    obtain ⟨t, possible, rfl⟩ := Option.map_eq_some_iff.mp moves
    rw [Service.act?] at possible
    split at possible
    · cases possible
      have running : (s.service.pool.map Prod.snd).running[0]? = some job.2 := by
        rw [show (s.service.pool.map Prod.snd).running = s.service.pool.running.map Prod.snd from
          rfl, List.getElem?_map, first]
        rfl
      rw [step?, pools_shown here, Option.bind_eq_bind, Option.bind_some, running,
        Option.bind_eq_bind, Option.bind_some, Pool.complete_map]
      simp [shown, run_setPool, setPool_setPool]
    · cases possible
  | back number =>
    rw [move?] at moves
    split at moves
    · cases moves
      rfl
    · cases moves

/-- What happens at the pool of the clients does nothing to the pools of the engine. -/
theorem pools_atPool? {act : Pool.Act Numbered} (acts : s.atPool? act = some s') :
    s'.engine.pools = s.engine.pools := by
  obtain ⟨t, -, rfl⟩ := Option.map_eq_some_iff.mp acts
  rfl

/-- No move touches the pools that the engine holds itself. -/
theorem pools_move? {m : Move} (moves : s.move? pool m = some s') :
    s'.engine.pools = s.engine.pools := by
  cases m with
  | log logger record =>
    obtain ⟨policy, -, moves⟩ := Option.bind_eq_some_iff.mp moves
    exact pools_atPool? moves
  | flush logger =>
    obtain ⟨policy, -, moves⟩ := Option.bind_eq_some_iff.mp moves
    exact pools_atPool? (s := { s with waits := s.next :: s.waits }) moves
  | take => exact pools_atPool? moves
  | finish =>
    obtain ⟨job, -, moves⟩ := Option.bind_eq_some_iff.mp moves
    exact (pools_atPool? moves).trans (stays_run s.engine job.2).pools
  | back number =>
    rw [move?] at moves
    split at moves
    · cases moves
      rfl
    · cases moves

/-- All moves of clients and worker are what the engine itself does. -/
theorem steps?_shown {moves : List Move} (here : pool < s.engine.pools.length)
    (run : s.moves? pool moves = some s') :
    moves.foldlM (step? pool) (s.shown pool) = some (s'.shown pool) := by
  induction moves generalizing s with
  | nil =>
    cases run
    rfl
  | cons m moves ih =>
    obtain ⟨next, first, rest⟩ := Option.bind_eq_some_iff.mp run
    rw [List.foldlM_cons, step?_shown here first, Option.bind_eq_bind, Option.bind_some]
    exact ih (by rw [pools_move? first]; exact here) rest

/-! ## What moves keep -/

/-- What holds of clients and a worker that began with an engine. -/
structure Kept (e : Engine) (pool capacity : Nat) (s : Clients) : Prop where
  turn : s.service.InTurn
  sizes : s.service.pool.size = ⟨capacity, 1⟩
  held : s.service.pool.closed = false
  numbered : s.service.posted.map Prod.fst = List.range s.next
  engine : s.engine = e.runAll s.service.pool.ran
  overruns : s.service.discarded = [] ∨ ∃ logger, e.policyIn? pool logger = some .overrunOldest
  waiting : ∀ number ∈ s.waits, ∃ logger, (e.policyIn? pool logger).isSome ∧
    (number, .flush logger) ∈ s.service.posted

/-- What is kept holds before anything is posted. -/
theorem kept_start (e : Engine) (pool capacity : Nat) : Kept e pool capacity (start e capacity) :=
  ⟨Pool.Service.inTurn_start _, rfl, rfl, rfl, rfl, .inl rfl, nofun⟩

/-- A job that is posted gets the next number. -/
theorem Kept.post {policy : OverflowPolicy} {t : Service Numbered} (h : Kept e pool capacity s)
    (place : 0 < capacity)
    (overruns : policy = .overrunOldest → ∃ logger, e.policyIn? pool logger = some .overrunOldest)
    (posts : s.service.act? (.post (s.next, job) policy) = some t) (waits : List Nat)
    (waiting : ∀ number ∈ waits, ∃ logger, (e.policyIn? pool logger).isSome ∧
      (number, .flush logger) ∈ s.service.posted ++ [(s.next, job)]) :
    Kept e pool capacity ⟨s.engine, t, waits⟩ := by
  obtain ⟨does, turn, sizes⟩ := h.turn.act place h.sizes posts
  have posted : t.posted = s.service.posted ++ [(s.next, job)] := does.posted_eq
  have numbered : t.posted.map Prod.fst = List.range t.posted.length := by
    rw [posted, List.map_append, h.numbered, List.length_append, List.length_singleton,
      List.range_succ]
    rfl
  rw [← posted] at waiting
  cases does with
  | post => exact ⟨turn, sizes, h.held, numbered, h.engine, h.overruns, waiting⟩
  | overrun => exact ⟨turn, sizes, h.held, numbered, h.engine, .inr (overruns rfl), waiting⟩

/-- Every flush that a client waits for stays among what was posted. -/
theorem Kept.waiting_concat (h : Kept e pool capacity s) (job : Numbered) :
    ∀ number ∈ s.waits, ∃ logger, (e.policyIn? pool logger).isSome ∧
      (number, .flush logger) ∈ s.service.posted ++ [job] := by
  intro number mem
  obtain ⟨logger, bound, here⟩ := h.waiting number mem
  exact ⟨logger, bound, List.mem_append_left _ here⟩

/-- A move keeps it, whichever of them is made. -/
theorem Kept.move {m : Move} (h : Kept e pool capacity s) (place : 0 < capacity)
    (moves : s.move? pool m = some s') : Kept e pool capacity s' := by
  have policies : ∀ logger, s.engine.policyIn? pool logger = e.policyIn? pool logger := by
    intro logger
    rw [h.engine, policyIn?_runAll]
  cases m with
  | log logger record =>
    obtain ⟨policy, bound, moves⟩ := Option.bind_eq_some_iff.mp moves
    obtain ⟨t, posts, rfl⟩ := Option.map_eq_some_iff.mp moves
    rw [policies] at bound
    refine h.post place ?_ posts s.waits (h.waiting_concat _)
    rintro rfl
    exact ⟨logger, bound⟩
  | flush logger =>
    obtain ⟨policy, bound, moves⟩ := Option.bind_eq_some_iff.mp moves
    obtain ⟨t, posts, rfl⟩ := Option.map_eq_some_iff.mp moves
    rw [policies] at bound
    -- A flush waits for room in the queue, so it discards nothing.
    have waitsForRoom : OverflowPolicy.block = .overrunOldest →
        ∃ logger, e.policyIn? pool logger = some .overrunOldest := nofun
    refine h.post place waitsForRoom posts (s.next :: s.waits) ?_
    intro number mem
    rcases List.mem_cons.mp mem with rfl | mem
    · exact ⟨logger, by rw [bound]; rfl, List.mem_append_right _ List.mem_cons_self⟩
    · exact h.waiting_concat _ number mem
  | take =>
    obtain ⟨t, takes, rfl⟩ := Option.map_eq_some_iff.mp moves
    obtain ⟨does, turn, sizes⟩ := h.turn.act place h.sizes takes
    cases does with
    | take => exact ⟨turn, sizes, h.held, h.numbered, h.engine, h.overruns, h.waiting⟩
  | finish =>
    obtain ⟨job, first, moves⟩ := Option.bind_eq_some_iff.mp moves
    obtain ⟨t, completes, rfl⟩ := Option.map_eq_some_iff.mp moves
    obtain ⟨does, turn, sizes⟩ := h.turn.act place h.sizes completes
    cases does with
    | complete _ here =>
      refine ⟨turn, sizes, h.held, h.numbered, ?_, h.overruns, h.waiting⟩
      cases Option.some.inj ((List.getElem?_eq_getElem here).symm.trans first)
      dsimp only
      rw [runAll_append, ← h.engine]
      rfl
  | back number =>
    rw [move?] at moves
    split at moves
    · cases moves
      exact ⟨h.turn, h.sizes, h.held, h.numbered, h.engine, h.overruns,
        fun other mem => h.waiting other (List.mem_of_mem_erase mem)⟩
    · cases moves

/-- Whatever clients and the worker do. -/
theorem Kept.moves {moves : List Move} (h : Kept e pool capacity s) (place : 0 < capacity)
    (run : s.moves? pool moves = some s') : Kept e pool capacity s' := by
  induction moves generalizing s with
  | nil =>
    cases run
    exact h
  | cons m moves ih =>
    obtain ⟨next, first, rest⟩ := Option.bind_eq_some_iff.mp run
    exact ih (h.move place first) rest

end Clients

end Engine

end LogTopology
