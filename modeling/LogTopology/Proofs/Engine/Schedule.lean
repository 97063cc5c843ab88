import LogTopology.Proofs.Engine.Traffic
/-!
# Loggers that share a worker

Loggers that share a pool with one worker and wait for room in it leave the sinks as loggers that
deliver at once do, whenever the worker comes to its jobs (`pooled_delivers_as_direct`): the sinks
get the same lines in the same order, and what they hold in the end is the same. Patterns and the
levels of sinks may be changed where nothing is waiting, right behind a flush.

What carries this is `Follows`: the jobs that are not done lead to a ledger that agrees with the one
of the direct loggers. A call puts its job behind them; when the worker is done with the first of
them, that was the first step of the same way. Levels of loggers and the time may change in between,
as jobs do not see them.
-/

namespace LogTopology.Engine

namespace Traffic

variable {pool : Nat} {p p' : Pool Job} {s s' : Traffic} {a : Turn} {turns : List Turn} {c : Call}
  {drained : Bool} {t final : Ledger}

/-! ## Following the direct loggers -/

/-- A flush that a client waits for is the last of the jobs that are not done, and there is no other
flush. Where a client that does not wait may change what jobs see, no job is left. -/
structure Awaited (waits drained : Bool) (jobs : List Job) : Prop where
  flushes : ∃ n, jobs.map Job.isFlush = List.replicate n false ++ List.replicate waits.toNat true
  clear : drained = true → waits = true ∨ jobs = []

namespace Awaited

variable {waits : Bool} {job : Job} {jobs : List Job}

/-- Where nothing is waiting any more, no job is left. -/
theorem eq_nil (h : Awaited false drained jobs) (clear : drained = true) : jobs = [] :=
  (h.clear clear).resolve_left Bool.false_ne_true

/-- While a client waits for a flush, a job is left. -/
theorem ne_nil (h : Awaited true drained jobs) : jobs ≠ [] := by
  rintro rfl
  obtain ⟨n, flushes⟩ := h.flushes
  simp at flushes

/-- A job that is posted is the last one, and a flush is posted behind jobs that are none. -/
theorem post (h : Awaited false drained jobs) {drained' : Bool}
    (flush : drained' = true → job.isFlush = true) :
    Awaited job.isFlush drained' (jobs ++ [job]) := by
  obtain ⟨n, flushes⟩ := h.flushes
  refine ⟨?_, fun clear => .inl (flush clear)⟩
  rw [List.map_append, flushes]
  cases kind : job.isFlush with
  | true => exact ⟨n, by simp [kind]⟩
  | false => exact ⟨n + 1, by simp [kind, List.replicate_succ']⟩

/-- The job that is done first is the flush itself only when no other is left. -/
theorem finish (h : Awaited waits drained (job :: jobs)) :
    Awaited (waits && !job.isFlush) drained jobs := by
  obtain ⟨⟨n, flushes⟩, clear⟩ := h
  cases n with
  | zero =>
    cases waits with
    | false => simp at flushes
    | true =>
      obtain ⟨flush, rfl⟩ : job.isFlush = true ∧ jobs = [] := by simpa using flushes
      rw [flush]
      exact ⟨⟨0, rfl⟩, fun _ => .inr rfl⟩
  | succ n =>
    obtain ⟨write, rest⟩ := List.cons.inj flushes
    rw [write, Bool.not_false, Bool.and_true]
    refine ⟨⟨n, rest⟩, fun h => .inl ?_⟩
    rcases clear h with waits | none
    · exact waits
    · cases none

end Awaited

/-- The jobs that are not done lead to the ledger of the direct loggers. -/
structure Follows (pool : Nat) (p : Pool Job) (drained : Bool) (s : Traffic) (t : Ledger) :
    Prop where
  here : s.engine.pools[pool]? = some p
  single : p.Single
  mirrors : Mirrors s.engine t.engine
  agree : Ledger.Agree (s.runAll p.pending) t
  awaited : Awaited s.waits drained p.pending

/-- An adjustment is made by the direct loggers too. Those that jobs can see are only made when none
is left. -/
theorem Follows.adjust {c : Call} {calls : List Call} (h : Follows pool p drained s t)
    (ready : s.waits = false) (jobless : s.engine.job? c = none)
    (bound : s.engine.bound pool c = true) (order : c.alters = true → drained = true) :
    Follows pool p (c.drains drained) ⟨⟨s.engine.adjust c, s.lines⟩, calls, false⟩ (t.make c) := by
  have awaited := h.awaited
  rw [ready] at awaited
  rw [Ledger.make_eq h.mirrors, jobless]
  refine ⟨?_, h.single, h.mirrors.adjust c, ?_, awaited.flushes, ?_⟩
  · show (s.engine.adjust c).pools[pool]? = some p
    rw [pools_adjust]
    exact h.here
  · -- A call that alters what is written has waited for the pool; the others change nothing that it
    -- reads.
    cases alters : c.alters with
    | true =>
      have agree := h.agree
      rw [awaited.eq_nil (order alters)] at agree ⊢
      exact ⟨agree.engine.adjust c, agree.lines⟩
    | false =>
      have unseen : Ledger.Agree ⟨s.engine.adjust c, s.lines⟩ s.toLedger :=
        ⟨adjust_alike s.engine alters, rfl⟩
      have after : Ledger.Agree t ⟨t.engine.adjust c, t.lines⟩ :=
        ⟨(adjust_alike t.engine alters).symm, rfl⟩
      exact ((unseen.runAll p.pending).trans h.agree).trans after
  · intro clear
    right
    cases c with
    | log => cases clear
    | flush logger =>
      rw [Engine.bound] at bound
      cases here : s.engine.loggers[logger]? with
      | none => simp [Call.logger?, here] at bound
      | some l => simp [job?, here] at jobless
    | setLevel | setPattern | setSinkLevel | clock => exact awaited.eq_nil clear

/-- A job that is posted is the last step on the way to what the direct loggers make of the call. -/
theorem Follows.post {c : Call} {calls : List Call} {l : LoggerState} {job : Job}
    (h : Follows pool p drained s t) (ready : s.waits = false)
    (asks : s.engine.job? c = some (l, job)) :
    Follows pool { p with queue := p.queue ++ [job] } (c.drains drained)
      ⟨⟨s.engine.setPool pool { p with queue := p.queue ++ [job] }, s.lines⟩, calls, job.isFlush⟩
      (t.make c) := by
  have pending : ({ p with queue := p.queue ++ [job] } : Pool Job).pending = p.pending ++ [job] :=
    (List.append_assoc p.running p.queue [job]).symm
  have awaited := h.awaited
  rw [ready] at awaited
  rw [Ledger.make_eq h.mirrors, asks]
  refine ⟨getElem?_setPool h.here _, ?_, ?_, ?_, ?_⟩
  · exact h.single.jobs _ p.running p.ran h.single.busy
  · exact (h.mirrors.of_stays (.refl s.engine) (stays_run t.engine job)).setPool pool _
  · have posted : Ledger.Agree
        ⟨s.engine.setPool pool { p with queue := p.queue ++ [job] }, s.lines⟩ s.toLedger :=
      ⟨setPool_alike s.engine pool _, rfl⟩
    rw [pending, Ledger.runAll_concat]
    exact ((posted.runAll p.pending).trans h.agree).run job
  · rw [pending]
    exact awaited.post (asks_of_job? asks).isFlush_of_drains

/-- Taking a job does not change the way: it was the first one and still is. -/
theorem Follows.take {job : Job} {rest : List Job} (h : Follows pool p drained s t)
    (queue : p.queue = job :: rest) (idle : p.running = []) :
    Follows pool { p with queue := rest, running := [job] } drained
      { s with engine := s.engine.setPool pool { p with queue := rest, running := [job] } } t := by
  have pending : ({ p with queue := rest, running := [job] } : Pool Job).pending = p.pending := by
    rw [Pool.pending, Pool.pending, queue, idle]
    rfl
  have taken : Ledger.Agree
      ⟨s.engine.setPool pool { p with queue := rest, running := [job] }, s.lines⟩ s.toLedger :=
    ⟨setPool_alike s.engine pool _, rfl⟩
  refine ⟨getElem?_setPool h.here _, ?_, h.mirrors.setPool pool _, ?_, ?_⟩
  · exact h.single.jobs rest [job] p.ran (Nat.le_refl 1)
  · rw [pending]
    exact (taken.runAll p.pending).trans h.agree
  · rw [pending]
    exact h.awaited

/-- Being done with a job is the first step of the way. -/
theorem Follows.finish {job : Job} (h : Follows pool p drained s t) (busy : p.running = [job]) :
    Follows pool { p with running := [], ran := p.ran ++ [job] } drained
      ⟨⟨(s.engine.run job).setPool pool { p with running := [], ran := p.ran ++ [job] },
        s.lines ++ s.engine.deliveries job⟩, s.calls, s.waits && !job.isFlush⟩ t := by
  have pending : p.pending = job :: p.queue := by
    rw [Pool.pending, busy]
    rfl
  have here := getElem?_pools_run h.here job
  have done : Ledger.Agree
      ⟨(s.engine.run job).setPool pool { p with running := [], ran := p.ran ++ [job] },
        s.lines ++ s.engine.deliveries job⟩ (s.run job) :=
    ⟨setPool_alike _ pool _, rfl⟩
  have agree := h.agree
  have awaited := h.awaited
  rw [pending] at agree awaited
  refine ⟨getElem?_setPool here _, ?_, ?_, ?_, awaited.finish⟩
  · exact h.single.jobs p.queue [] _ (Nat.zero_le 1)
  · exact (h.mirrors.of_stays (stays_run s.engine job) (.refl t.engine)).setPool pool _
  · exact (done.runAll p.queue).trans agree

/-! ## To the end -/

/-- However it goes on, a client and a worker come to a ledger: what the direct loggers make of the
calls that are left. -/
structure Leads (pool : Nat) (p : Pool Job) (s : Traffic) (final : Ledger) : Prop where
  bound : ∀ c ∈ s.calls, s.engine.bound pool c = true
  follows : ∃ drained t, Follows pool p drained s t ∧ t.makeAll s.calls = final ∧
    Call.orderly drained s.calls = true ∧ s.calls.foldl Call.drains drained = true

/-- A turn that can be taken leads to the same ledger. -/
theorem Leads.does (h : Leads pool p s final) (does : Does pool p s a p' s') :
    Leads pool p' s' final := by
  obtain ⟨drained, t, follows, rest, order, clear⟩ := h.follows
  refine ⟨?_, ?_⟩
  · intro c mem
    rw [bound_congr does.dispatch_eq]
    exact h.bound c (does.calls_suffix.subset mem)
  · cases does with
    | adjust c calls ready left jobless =>
      have bound := h.bound c (by simp [left])
      rw [left] at rest order clear
      obtain ⟨here, order⟩ := Bool.and_eq_true_iff.mp order
      refine ⟨c.drains drained, t.make c, follows.adjust ready jobless bound ?_, rest, order, clear⟩
      intro alters
      rw [alters] at here
      exact here
    | post c calls l job ready left asks waits room =>
      rw [left] at rest order clear
      obtain ⟨-, order⟩ := Bool.and_eq_true_iff.mp order
      exact ⟨c.drains drained, t.make c, follows.post ready asks, rest, order, clear⟩
    | take job queue first idle => exact ⟨drained, t, follows.take first idle, rest, order, clear⟩
    | finish job busy => exact ⟨drained, t, follows.finish busy, rest, order, clear⟩

/-- Every turn is one of those that can be taken, and leads to the same ledger. -/
theorem Leads.step (h : Leads pool p s final) (turn : s.turn? pool a = some s') :
    ∃ p', Does pool p s a p' s' ∧ Leads pool p' s' final := by
  obtain ⟨drained, t, follows, -⟩ := h.follows
  obtain ⟨p', does⟩ := does_of_turn? follows.here follows.single h.bound turn
  exact ⟨p', does, h.does does⟩

/-- Whatever turns are taken, the way leads to the same ledger, and it comes nearer. -/
theorem Leads.run (h : Leads pool p s final) (run : s.turns? pool turns = some s') :
    ∃ p', Leads pool p' s' final ∧ turns.length + remaining p' s' ≤ remaining p s := by
  induction turns generalizing s p with
  | nil =>
    cases run
    exact ⟨p, h, Nat.le_of_eq (Nat.zero_add _)⟩
  | cons a turns ih =>
    obtain ⟨next, turn, run⟩ := Option.bind_eq_some_iff.mp run
    obtain ⟨q, does, h⟩ := h.step turn
    obtain ⟨p', h', bound⟩ := ih h run
    have less := does.remaining_lt
    refine ⟨p', h', ?_⟩
    rw [List.length_cons]
    omega

/-- What has been handed out is the beginning of all that is going to be. -/
theorem Leads.lines_prefix (h : Leads pool p s final) : s.lines <+: final.lines := by
  obtain ⟨drained, t, follows, rest, -⟩ := h.follows
  have now : s.lines <+: t.lines := by
    rw [← follows.agree.lines]
    exact Ledger.lines_runAll s.toLedger p.pending
  rw [← rest]
  exact now.trans (Ledger.lines_makeAll t s.calls)

/-- When the client has nothing more to do, the worker is done with all jobs. -/
theorem Leads.pending_eq_nil (h : Leads pool p s final) (done : s.done) : p.pending = [] := by
  obtain ⟨drained, t, follows, -, -, clear⟩ := h.follows
  obtain ⟨calls, waits⟩ := done
  have awaited := follows.awaited
  rw [calls] at clear
  rw [waits] at awaited
  exact awaited.eq_nil clear

/-- As long as the client is not done, something can happen. -/
theorem Leads.exists_does (h : Leads pool p s final) (busy : ¬ s.done) :
    ∃ a p' s', Does pool p s a p' s' := by
  obtain ⟨drained, t, follows, -⟩ := h.follows
  -- The worker goes on where there is work, and a client only waits for work that is there.
  cases running : p.running with
  | cons job rest =>
    have none : rest = [] := by
      have busy := follows.single.busy
      rw [running, List.length_cons] at busy
      apply List.eq_nil_of_length_eq_zero
      omega
    rw [none] at running
    exact ⟨.finish, _, _, .finish job running⟩
  | nil =>
    cases queue : p.queue with
    | cons job rest => exact ⟨.take, _, _, .take job rest queue running⟩
    | nil =>
      have idle : p.pending = [] := by rw [Pool.pending, running, queue, List.append_nil]
      have awaited := follows.awaited
      rw [idle] at awaited
      cases waits : s.waits with
      | true =>
        rw [waits] at awaited
        exact absurd rfl awaited.ne_nil
      | false =>
        cases calls : s.calls with
        | nil => exact absurd ⟨calls, waits⟩ busy
        | cons c rest =>
          cases asks : s.engine.job? c with
          | none => exact ⟨.call, _, _, .adjust c rest waits calls asks⟩
          | some asked =>
            have bound := h.bound c (by simp [calls])
            have room : p.queue.length < p.size.queue := by
              rw [queue]
              exact follows.single.place
            exact ⟨.call, _, _,
              .post c rest _ _ waits calls asks ((asks_of_job? asks).dispatch_eq bound) room⟩

/-- Nothing happens any more exactly when the client is done. -/
theorem Leads.stuck_iff (h : Leads pool p s final) : (∀ a, s.turn? pool a = none) ↔ s.done := by
  constructor
  · intro stuck
    refine Classical.byContradiction fun busy => ?_
    obtain ⟨a, p', s', does⟩ := h.exists_does busy
    obtain ⟨drained, t, follows, -⟩ := h.follows
    have turn := does.turn?_eq follows.here follows.single
    rw [stuck a] at turn
    cases turn
  · intro done a
    obtain ⟨running, queue⟩ := List.append_eq_nil_iff.mp (h.pending_eq_nil done)
    apply Option.eq_none_iff_forall_ne_some.mpr
    intro s' turn
    obtain ⟨p', does, -⟩ := h.step turn
    cases does with
    | adjust c calls _ rest | post c calls _ _ _ rest =>
      rw [done.1] at rest
      cases rest
    | take job rest first =>
      rw [queue] at first
      cases first
    | finish job busy =>
      rw [running] at busy
      cases busy

/-- A client that is done leaves the sinks as the direct loggers do. -/
theorem Leads.done (h : Leads pool p s final) (done : s.done) :
    s.lines = final.lines ∧ s.engine.sinks = final.engine.sinks ∧
      s.engine.world = final.engine.world := by
  obtain ⟨drained, t, follows, rest, -⟩ := h.follows
  have agree := follows.agree
  rw [h.pending_eq_nil done] at agree
  rw [done.1] at rest
  subst rest
  exact ⟨agree.lines, agree.engine.sinks,
    World.eq_of_still agree.engine.world follows.mirrors.now.symm⟩

/-- Before the first call the way leads to what the direct loggers make of all calls. -/
theorem leads_start {e : Engine} {calls : List Call} {last : Nat}
    (here : e.pools[pool]? = some p) (single : p.Single) (idle : p.pending = [])
    (bound : ∀ c ∈ calls ++ [.flush last], e.bound pool c = true)
    (order : Call.orderly true (calls ++ [.flush last]) = true) :
    Leads pool p (start e (calls ++ [.flush last]))
      (Ledger.directly e (calls ++ [.flush last])) := by
  refine ⟨bound, true, ⟨e.atOnce, []⟩, ?_, rfl, order, ?_⟩
  · refine ⟨here, single, mirrors_atOnce e, ?_, ?_⟩
    · rw [idle]
      exact ⟨alike_atOnce e, rfl⟩
    · rw [idle]
      exact ⟨⟨0, rfl⟩, fun _ => .inr rfl⟩
  · show (calls ++ [Call.flush last]).foldl Call.drains true = true
    rw [List.foldl_append]
    rfl

end Traffic

/-- Through loggers that share a pool with one worker and wait for room in it, a client makes calls
that end with a flush, and it changes patterns and the levels of sinks only where nothing is waiting.
Whatever turns the client and the worker take, there are three for each call at the most, and there
is another one until the client is done. What the sinks have got is always the beginning of what
direct loggers hand them for the same calls. When the client is done it is all of it, and the sinks
and all that they act on are as the direct loggers leave them. -/
theorem pooled_delivers_as_direct {e : Engine} {pool : Nat} {p : Pool Job} {calls : List Call}
    {last : Nat} {turns : List Turn} {s : Traffic}
    (here : e.pools[pool]? = some p) (single : p.Single) (idle : p.pending = [])
    (bound : ∀ c ∈ calls ++ [.flush last], e.bound pool c = true)
    (order : Call.orderly true (calls ++ [.flush last]) = true)
    (run : (Traffic.start e (calls ++ [.flush last])).turns? pool turns = some s) :
    turns.length ≤ 3 * (calls.length + 1) ∧
      s.lines <+: (Ledger.directly e (calls ++ [.flush last])).lines ∧
      ((∀ a, s.turn? pool a = none) ↔ s.done) ∧
      (s.done → s.lines = (Ledger.directly e (calls ++ [.flush last])).lines ∧
        s.engine.sinks = (Ledger.directly e (calls ++ [.flush last])).engine.sinks ∧
        s.engine.world = (Ledger.directly e (calls ++ [.flush last])).engine.world) := by
  have leads := Traffic.leads_start here single idle bound order
  obtain ⟨p', leads', bound⟩ := leads.run run
  refine ⟨?_, leads'.lines_prefix, leads'.stuck_iff, leads'.done⟩
  obtain ⟨running, queue⟩ := List.append_eq_nil_iff.mp idle
  have all : Traffic.remaining p (Traffic.start e (calls ++ [.flush last])) =
      3 * (calls.length + 1) := by
    rw [Traffic.remaining, running, queue]
    simp [Traffic.start]
  omega

/-- Two loggers that share a pool with room for one job, and a console. One of them also writes to
the standard error. -/
def twoLoggers : Engine :=
  ⟨⟨⟨[], []⟩, [], [], .never, ⟨0, 0, 0⟩, 7⟩,
    [⟨.trace, some (.console .out false)⟩, ⟨.warn, some (.console .err false)⟩],
    [⟨"app", .info, ⟨"%v", [.part .payload]⟩, [.leaf 0, .leaf 1], .pooled 0 .block⟩,
      ⟨"db", .info, ⟨"%n: %v", [.part .logger, .literal [':', ' '], .part .payload]⟩, [.leaf 0],
        .pooled 0 .block⟩],
    [.fresh ⟨1, 1⟩], [], none, 0⟩

/-- Calls of the two loggers. A pattern and the level of a sink change behind a flush. -/
def someCalls : List Call :=
  [.log 0 .warn "low", .log 1 .info "up", .setLevel 0 .err, .log 0 .warn "lost", .flush 1,
    .setPattern 0 "%l %v", .setSinkLevel 1 .off, .clock ⟨1, 0, 0⟩, .log 0 .err "gone"]

/-- Turns in which the worker falls behind: the level of a logger changes before the worker comes to
what was logged. -/
def lateTurns : List Turn :=
  [.call, .take, .call, .call, .call, .finish, .take, .call, .finish, .take, .finish,
    .call, .call, .call, .call, .take, .call, .finish, .take, .finish]

/-- The sinks get the lines in the order of the calls, the last one in the new pattern and not to
the sink that was turned off. -/
theorem late_worker_delivers_as_direct :
    twoLoggers.pools[0]? = some (.fresh ⟨1, 1⟩) ∧
      (Pool.fresh ⟨1, 1⟩ : Pool Job).Single ∧
      (∀ c ∈ someCalls ++ [.flush 0], twoLoggers.bound 0 c = true) ∧
      Call.orderly true (someCalls ++ [.flush 0]) = true ∧
      ∃ s, (Traffic.start twoLoggers (someCalls ++ [.flush 0])).turns? 0 lateTurns = some s ∧
        s.done ∧ (∀ a, s.turn? 0 a = none) ∧
        s.lines.map (fun x => (x.sink, String.ofList x.line.text)) =
          [(0, "low\n"), (1, "low\n"), (0, "db: up\n"), (0, "err gone\n")] ∧
        s.lines = (Ledger.directly twoLoggers (someCalls ++ [.flush 0])).lines ∧
        s.engine.world = (Ledger.directly twoLoggers (someCalls ++ [.flush 0])).engine.world := by
  have single : (Pool.fresh ⟨1, 1⟩ : Pool Job).Single := ⟨rfl, rfl, Nat.one_pos, Nat.zero_le 1⟩
  have bound : ∀ c ∈ someCalls ++ [.flush 0], twoLoggers.bound 0 c = true := by decide
  have order : Call.orderly true (someCalls ++ [.flush 0]) = true := by decide
  have happens : ((Traffic.start twoLoggers (someCalls ++ [.flush 0])).turns? 0 lateTurns).isSome =
      true := by decide +kernel
  obtain ⟨s, run⟩ := Option.isSome_iff_exists.mp happens
  have seen : ((Traffic.start twoLoggers (someCalls ++ [.flush 0])).turns? 0 lateTurns).map
      (fun s => (s.calls, s.waits, s.lines.map fun x => (x.sink, String.ofList x.line.text))) =
      some ([], false,
        [(0, "low\n"), (1, "low\n"), (0, "db: up\n"), (0, "err gone\n")]) := by decide +kernel
  rw [run] at seen
  obtain ⟨calls, rest⟩ := Prod.mk.inj (Option.some.inj seen)
  obtain ⟨waits, lines⟩ := Prod.mk.inj rest
  obtain ⟨-, -, stuck, ends⟩ := pooled_delivers_as_direct rfl single rfl bound order run
  obtain ⟨same, -, world⟩ := ends ⟨calls, waits⟩
  exact ⟨rfl, single, bound, order, s, run, ⟨calls, waits⟩, stuck.mpr ⟨calls, waits⟩, lines, same,
    world⟩

end LogTopology.Engine
