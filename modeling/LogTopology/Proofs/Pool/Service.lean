import LogTopology.Pool.Queue
/-!
# A pool in service

Clients post jobs to a pool, its workers take them, are done with them and leave, and the pool is
closed when nobody holds it any more. A service is a pool together with what happened to it: all
jobs that were posted and all that were discarded. `Does` tells what one act can do; everything that
is said of a service is kept by each of its cases and so holds after any acts.

With one worker the queue is the end of what was posted, and what ran or runs is a part of the jobs
before it, in order. A closed pool comes to its end: its workers can do only so many more things,
and when they can do nothing any more they have left.

That a worker which waits is woken is not told here, nor when a job is done.
-/

namespace LogTopology.Pool

/-- What happens to a pool. -/
inductive Act (J : Type) where
  | post (job : J) (policy : OverflowPolicy)
  | take
  /-- A worker is done with the job at the place. -/
  | complete (i : Nat)
  | close
  | leave
  deriving DecidableEq

variable {J : Type}

/-- The jobs that are posted. -/
def posts : List (Act J) → List J
  | [] => []
  | .post job _ :: acts => job :: posts acts
  | _ :: acts => posts acts

/-! ## Posts -/

section Post

variable {p : Pool J} {job oldest : J} {rest : List J}

/-- A job goes behind the others when there is room. -/
theorem post?_of_room (room : p.queue.length < p.size.queue) (policy : OverflowPolicy) :
    p.post? job policy = some ({ p with queue := p.queue ++ [job] }, []) := by
  have none : p.surplus = 0 := by
    unfold surplus
    omega
  unfold post?
  rw [none]

/-- A job that does not wait for room takes it from the oldest one. -/
theorem post?_of_full (queue : p.queue = oldest :: rest) (full : p.queue.length = p.size.queue) :
    p.post? job .overrunOldest =
      some ({ p with queue := rest ++ [job], overrun := p.overrun + 1 }, [oldest]) := by
  have one : p.surplus = 1 := by
    unfold surplus
    omega
  unfold post?
  rw [one, queue]
  rfl

/-- A job that waits for room is not posted without. -/
theorem post?_block_of_full (full : p.size.queue ≤ p.queue.length) : p.post? job .block = none := by
  obtain ⟨n, more⟩ : ∃ n, p.surplus = n + 1 := by
    refine ⟨p.queue.length - p.size.queue, ?_⟩
    unfold surplus
    omega
  unfold post?
  rw [more]

end Post

/-! ## Workers -/

/-- A worker is free when fewer of them are at a job or have left than there are. -/
theorem free_iff {p : Pool J} : p.free = true ↔ p.running.length + p.gone < p.size.threads :=
  decide_eq_true_iff

/-- A worker takes the oldest job, and it has to be free. -/
theorem take?_eq_some {p p' : Pool J} {job : J} :
    p.take? = some (job, p') ↔ ∃ rest, p.queue = job :: rest ∧ p.free = true ∧
      p' = { p with queue := rest, running := p.running ++ [job] } := by
  unfold take?
  cases p.queue with
  | nil =>
    constructor
    · intro h
      cases h
    · rintro ⟨_, h, -⟩
      cases h
  | cons oldest rest =>
    cases p.free with
    | false =>
      constructor
      · intro h
        cases h
      · rintro ⟨_, -, h, -⟩
        cases h
    | true =>
      constructor
      · intro h
        cases h
        exact ⟨rest, rfl, rfl, rfl⟩
      · rintro ⟨_, h, -, rfl⟩
        cases h
        rfl

/-- A worker leaves a closed pool without jobs, and it has to be free. -/
theorem leave?_eq_some {p p' : Pool J} :
    p.leave? = some p' ↔ p.queue = [] ∧ p.closed = true ∧ p.free = true ∧
      p' = { p with gone := p.gone + 1 } := by
  unfold leave?
  constructor
  · intro h
    split at h
    · rename_i leaves
      simp only [Bool.and_eq_true, List.isEmpty_iff] at leaves
      cases h
      exact ⟨leaves.1.2, leaves.2, leaves.1.1, rfl⟩
    · cases h
  · rintro ⟨queue, closed, free, rfl⟩
    rw [queue, closed, free]
    rfl

/-- A pool, with all jobs that were posted and all that were discarded, in order. -/
structure Service (J : Type) where
  pool : Pool J
  posted : List J
  discarded : List J

namespace Service

/-- A pool to which nothing has been posted. -/
def start (p : Pool J) : Service J :=
  ⟨p, [], []⟩

/-- What an act makes of a service, if it is possible. Who posts holds the pool, so that it has not
been closed. -/
def act? (s : Service J) : Act J → Option (Service J)
  | .post job policy =>
    if s.pool.closed then none
    else (s.pool.post? job policy).map fun (p, lost) => ⟨p, s.posted ++ [job], s.discarded ++ lost⟩
  | .take => s.pool.take?.map fun (_, p) => { s with pool := p }
  | .complete i =>
    if i < s.pool.running.length then some { s with pool := s.pool.complete i } else none
  | .close => if s.pool.closed then none else some { s with pool := s.pool.close }
  | .leave => s.pool.leave?.map fun p => { s with pool := p }

/-- Acts that are all possible, one after the other. -/
def acts? (s : Service J) (acts : List (Act J)) : Option (Service J) :=
  acts.foldlM act? s

/-! ## What an act can do -/

/-- What one act does to a service whose queue is within its bound. -/
inductive Does (s : Service J) : Act J → Service J → Prop where
  | post (job : J) (policy : OverflowPolicy) (held : s.pool.closed = false)
      (room : s.pool.queue.length < s.pool.size.queue) :
      Does s (.post job policy)
        ⟨{ s.pool with queue := s.pool.queue ++ [job] }, s.posted ++ [job], s.discarded⟩
  | overrun (job oldest : J) (rest : List J) (held : s.pool.closed = false)
      (queue : s.pool.queue = oldest :: rest) (full : s.pool.queue.length = s.pool.size.queue) :
      Does s (.post job .overrunOldest)
        ⟨{ s.pool with queue := rest ++ [job], overrun := s.pool.overrun + 1 },
          s.posted ++ [job], s.discarded ++ [oldest]⟩
  | take (job : J) (rest : List J) (queue : s.pool.queue = job :: rest)
      (free : s.pool.running.length + s.pool.gone < s.pool.size.threads) :
      Does s .take
        { s with pool := { s.pool with queue := rest, running := s.pool.running ++ [job] } }
  | complete (i : Nat) (here : i < s.pool.running.length) :
      Does s (.complete i)
        { s with pool := { s.pool with
            running := s.pool.running.eraseIdx i
            ran := s.pool.ran ++ [s.pool.running[i]] } }
  | close (held : s.pool.closed = false) : Does s .close { s with pool := s.pool.close }
  | leave (closed : s.pool.closed = true) (queue : s.pool.queue = [])
      (free : s.pool.running.length + s.pool.gone < s.pool.size.threads) :
      Does s .leave { s with pool := { s.pool with gone := s.pool.gone + 1 } }

variable {s s' : Service J} {a : Act J} {done : List (Act J)}

/-- A post finds room, or takes the place of the oldest queued job. -/
theorem does_of_post {job : J} {policy : OverflowPolicy} (place : 0 < s.pool.size.queue)
    (bound : s.pool.queue.length ≤ s.pool.size.queue)
    (h : s.act? (.post job policy) = some s') : Does s (.post job policy) s' := by
  rw [act?] at h
  split at h
  · cases h
  rename_i closed
  have held := Bool.eq_false_iff.mpr closed
  rcases Nat.lt_or_eq_of_le bound with room | full
  · rw [post?_of_room room] at h
    cases h
    dsimp only
    rw [List.append_nil]
    exact .post job policy held room
  · cases policy with
    | block =>
      rw [post?_block_of_full (Nat.le_of_eq full.symm)] at h
      cases h
    | overrunOldest =>
      obtain ⟨oldest, rest, queue⟩ := List.exists_cons_of_length_pos (full ▸ place)
      rw [post?_of_full queue full] at h
      cases h
      exact .overrun job oldest rest held queue full

/-- Whatever happens to a service is one of the acts. -/
theorem does_of_act? (place : 0 < s.pool.size.queue)
    (bound : s.pool.queue.length ≤ s.pool.size.queue) (h : s.act? a = some s') : Does s a s' := by
  cases a with
  | post job policy => exact does_of_post place bound h
  | take =>
    obtain ⟨⟨job, p⟩, taken, rfl⟩ := Option.map_eq_some_iff.mp h
    obtain ⟨rest, queue, free, rfl⟩ := take?_eq_some.mp taken
    exact .take job rest queue (free_iff.mp free)
  | complete i =>
    rw [act?] at h
    split at h
    · rename_i here
      cases h
      unfold Pool.complete
      rw [List.getElem?_eq_getElem here]
      exact .complete i here
    · cases h
  | close =>
    rw [act?] at h
    split at h
    · cases h
    · rename_i held
      cases h
      exact .close (Bool.eq_false_iff.mpr held)
  | leave =>
    obtain ⟨p, left, rfl⟩ := Option.map_eq_some_iff.mp h
    obtain ⟨queue, closed, free, rfl⟩ := leave?_eq_some.mp left
    exact .leave closed queue (free_iff.mp free)

/-- A pool keeps its size. -/
theorem Does.size_eq (does : Does s a s') : s'.pool.size = s.pool.size := by
  cases does <;> rfl

/-- What is posted is what the acts post. -/
theorem Does.posted_eq (does : Does s a s') : s'.posted = s.posted ++ posts [a] := by
  cases does <;> first | rfl | exact (List.append_nil _).symm

/-! ## What acts keep -/

/-- The jobs of a pool with one worker. Those that are not queued any more left the queue in the
order of the posts: each of them was taken, and ran or runs, or was discarded. The queue is within
its bound, the pool has counted what was discarded, and a worker that has left found the pool closed
and nothing to do. -/
structure InTurn (s : Service J) : Prop where
  room : s.pool.queue.length ≤ s.pool.size.queue
  exits : ∃ exits : List (J × Bool), s.posted = exits.map Prod.fst ++ s.pool.queue ∧
    s.pool.ran ++ s.pool.running = (exits.filter fun e => e.2).map Prod.fst ∧
    s.discarded = (exits.filter fun e => !e.2).map Prod.fst
  counted : s.discarded.length = s.pool.overrun
  single : s.pool.running.length + s.pool.gone ≤ 1
  ended : s.pool.gone = 0 ∨ s.pool.closed = true ∧ s.pool.queue = []

/-- Before anything happens the jobs are in turn. -/
theorem inTurn_start (size : PoolSize) : InTurn (start (fresh size : Pool J)) :=
  ⟨Nat.zero_le _, ⟨[], rfl, rfl, rfl⟩, rfl, Nat.zero_le _, .inl rfl⟩

/-- Only one job can be running, and nothing is running once it is done. -/
theorem eraseIdx_of_single {l : List J} {i : Nat} (single : l.length ≤ 1) (here : i < l.length) :
    l = [l[i]] ∧ l.eraseIdx i = [] := by
  match l, i with
  | [_], 0 => exact ⟨rfl, rfl⟩
  | _ :: _ :: _, _ => exact absurd single (by simp)

/-- As long as the pool is held its worker is there. -/
theorem InTurn.gone_eq_zero (turn : InTurn s) (held : s.pool.closed = false) : s.pool.gone = 0 := by
  rcases turn.ended with none | ⟨closed, -⟩
  · exact none
  · rw [held] at closed
    cases closed

/-- An act keeps the jobs of a single worker in turn. -/
theorem InTurn.does (turn : InTurn s) (one : s.pool.size.threads = 1) (does : Does s a s') :
    InTurn s' := by
  obtain ⟨exits, posted, taken, lost⟩ := turn.exits
  cases does with
  | post job policy held free =>
    refine ⟨?_, ⟨exits, ?_, taken, lost⟩, turn.counted, turn.single, .inl (turn.gone_eq_zero held)⟩
    · rw [List.length_append]
      exact free
    · rw [posted, List.append_assoc]
  | overrun job oldest rest held queue full =>
    refine ⟨?_, ⟨exits ++ [(oldest, false)], ?_, ?_, ?_⟩, ?_, turn.single,
      .inl (turn.gone_eq_zero held)⟩
    · rw [← full, queue, List.length_append]
      exact Nat.le_refl _
    · rw [posted, queue]
      simp
    · rw [List.filter_append, List.map_append, taken]
      exact (List.append_nil _).symm
    · rw [List.filter_append, List.map_append, lost]
      rfl
    · rw [List.length_append, turn.counted]
      rfl
  | take job rest queue free =>
    -- The worker is free, so it runs nothing and is not gone.
    have idle : s.pool.running = [] := by
      apply List.eq_nil_of_length_eq_zero
      omega
    have there : s.pool.gone = 0 := by omega
    refine ⟨?_, ⟨exits ++ [(job, true)], ?_, ?_, ?_⟩, turn.counted, ?_, .inl there⟩
    · have room := turn.room
      rw [queue] at room
      exact Nat.le_of_succ_le room
    · rw [posted, queue]
      simp
    · rw [List.filter_append, List.map_append, ← taken, ← List.append_assoc]
      rfl
    · rw [List.filter_append, List.map_append, lost]
      exact (List.append_nil _).symm
    · rw [idle, there]
      exact Nat.le_refl _
  | complete i here =>
    have single := turn.single
    obtain ⟨only, none⟩ := eraseIdx_of_single (Nat.le_of_add_right_le single) here
    refine ⟨turn.room, ⟨exits, posted, ?_, lost⟩, turn.counted, ?_, turn.ended⟩
    · rw [none, List.append_nil, ← only]
      exact taken
    · rw [none]
      simp only [List.length_nil]
      omega
  | close held =>
    exact ⟨turn.room, turn.exits, turn.counted, turn.single, .inl (turn.gone_eq_zero held)⟩
  | leave closed queue free =>
    refine ⟨turn.room, turn.exits, turn.counted, ?_, .inr ⟨closed, queue⟩⟩
    dsimp only
    omega

/-- An act at a pool with one worker whose jobs are in turn. -/
theorem InTurn.act {capacity : Nat} (place : 0 < capacity) (turn : InTurn s)
    (sizes : s.pool.size = ⟨capacity, 1⟩) (possible : s.act? a = some s') :
    Does s a s' ∧ InTurn s' ∧ s'.pool.size = ⟨capacity, 1⟩ := by
  have does := does_of_act? (by rw [sizes]; exact place) turn.room possible
  exact ⟨does, turn.does (by rw [sizes]) does, does.size_eq.trans sizes⟩

/-- Whatever happens to a pool with one worker, its jobs stay in turn. -/
theorem InTurn.acts {capacity : Nat} (place : 0 < capacity) (turn : InTurn s)
    (sizes : s.pool.size = ⟨capacity, 1⟩) (h : s.acts? done = some s') :
    InTurn s' ∧ s'.pool.size = ⟨capacity, 1⟩ ∧ s'.posted = s.posted ++ posts done := by
  induction done generalizing s with
  | nil =>
    cases h
    exact ⟨turn, sizes, (List.append_nil _).symm⟩
  | cons a done ih =>
    obtain ⟨next, possible, rest⟩ := Option.bind_eq_some_iff.mp h
    obtain ⟨does, turn', sizes'⟩ := turn.act place sizes possible
    obtain ⟨turn'', sizes'', posted⟩ := ih turn' sizes' rest
    refine ⟨turn'', sizes'', ?_⟩
    rw [posted, does.posted_eq, List.append_assoc]
    cases a <;> rfl

/-! ## The end of a pool -/

/-- How much a closed pool can still do. -/
def remaining (p : Pool J) : Nat :=
  2 * p.queue.length + p.running.length + (p.size.threads - p.gone)

/-- A closed pool stays closed, and every act brings it nearer to its end. -/
theorem Does.remaining_lt (does : Does s a s') (closed : s.pool.closed = true) :
    s'.pool.closed = true ∧ remaining s'.pool < remaining s.pool := by
  cases does with
  | post _ _ held | overrun _ _ _ held | close held =>
    rw [closed] at held
    cases held
  | take job rest queue free =>
    refine ⟨closed, ?_⟩
    unfold remaining
    rw [queue]
    simp only [List.length_cons, List.length_append, List.length_nil]
    omega
  | complete i here =>
    refine ⟨closed, ?_⟩
    unfold remaining
    simp only [List.length_eraseIdx_of_lt here]
    omega
  | leave _ queue free =>
    refine ⟨closed, ?_⟩
    unfold remaining
    dsimp only
    omega

/-- A closed pool can do only so many more things. -/
theorem InTurn.length_le {capacity : Nat} (place : 0 < capacity) (turn : InTurn s)
    (sizes : s.pool.size = ⟨capacity, 1⟩) (closed : s.pool.closed = true)
    (h : s.acts? done = some s') :
    s'.pool.closed = true ∧ done.length + remaining s'.pool ≤ remaining s.pool := by
  induction done generalizing s with
  | nil =>
    cases h
    exact ⟨closed, Nat.le_of_eq (Nat.zero_add _)⟩
  | cons a done ih =>
    obtain ⟨next, possible, rest⟩ := Option.bind_eq_some_iff.mp h
    obtain ⟨does, turn', sizes'⟩ := turn.act place sizes possible
    obtain ⟨closed', less⟩ := does.remaining_lt closed
    obtain ⟨closed'', bound⟩ := ih turn' sizes' closed' rest
    refine ⟨closed'', ?_⟩
    rw [List.length_cons]
    omega

/-- Where nothing can be done any more in a closed pool, all workers have left. -/
theorem gone_of_stuck (closed : s.pool.closed = true) (stuck : ∀ a, s.act? a = none) :
    s.pool.size.threads ≤ s.pool.gone := by
  have idle : s.pool.running = [] := by
    apply List.eq_nil_of_length_eq_zero
    apply Nat.eq_zero_of_not_pos
    intro busy
    have done := stuck (.complete 0)
    rw [act?, if_pos busy] at done
    cases done
  apply Nat.le_of_not_lt
  intro there
  have free : s.pool.free = true := free_iff.mpr (by rw [idle]; simpa using there)
  cases queue : s.pool.queue with
  | nil =>
    have leaves := stuck .leave
    rw [act?, leave?_eq_some.mpr ⟨queue, closed, free, rfl⟩] at leaves
    cases leaves
  | cons job rest =>
    have takes := stuck .take
    rw [act?, take?_eq_some.mpr ⟨rest, queue, free, rfl⟩] at takes
    cases takes

/-! ## What becomes of the jobs -/

/-- The jobs that were posted are those that ran, run or wait, in the order of the posts, and those
that were discarded. -/
theorem InTurn.split (turn : InTurn s) :
    (s.pool.ran ++ s.pool.running ++ s.pool.queue ++ s.discarded).Perm s.posted ∧
      (s.pool.ran ++ s.pool.running ++ s.pool.queue).Sublist s.posted := by
  obtain ⟨exits, posted, taken, lost⟩ := turn.exits
  rw [taken, lost, posted]
  constructor
  · rw [List.append_assoc]
    refine (List.perm_append_comm.append_left _).trans ?_
    rw [← List.append_assoc, ← List.map_append]
    exact ((List.filter_append_perm _ exits).map _).append_right _
  · exact (List.filter_sublist.map _).append_right _

/-- A job is discarded only for one that does not wait while the queue is full, and it is the
oldest one of the queue. -/
theorem Does.discards (does : Does s a s') :
    s'.discarded = s.discarded ∨ ∃ job oldest rest, a = .post job .overrunOldest ∧
      s.pool.queue = oldest :: rest ∧ s.pool.queue.length = s.pool.size.queue ∧
      s'.discarded = s.discarded ++ [oldest] ∧ s'.pool.queue = rest ++ [job] := by
  cases does with
  | overrun job oldest rest _ queue full =>
    exact .inr ⟨job, oldest, rest, rfl, queue, full, rfl, rfl⟩
  | post | take | complete | close | leave => exact .inl rfl

/-- A post that waits for room is made exactly when there is room in a pool that is held. -/
theorem act?_block_iff (job : J) :
    (∃ s', s.act? (.post job .block) = some s') ↔
      s.pool.closed = false ∧ s.pool.queue.length < s.pool.size.queue := by
  rw [act?]
  constructor
  · rintro ⟨s', h⟩
    split at h
    · cases h
    · rename_i closed
      refine ⟨Bool.eq_false_iff.mpr closed, Nat.lt_of_not_le fun full => ?_⟩
      rw [post?_block_of_full full] at h
      cases h
  · rintro ⟨held, room⟩
    rw [held, post?_of_room room]
    exact ⟨_, rfl⟩

end Service

open Service (start)

/-- Whatever happens to a pool with one worker, its queue is within its bound; the jobs that were
posted are those that ran, run or wait, in the order of the posts, and those that were discarded;
the pool counts the latter. A job is discarded only for one that does not wait while the queue is
full, and it is the oldest one; a job that waits is posted when there is room. When the worker has
left, all jobs that were not discarded have run, in order; and once the pool is closed the worker
can do only so many more things until it has left. -/
theorem jobs_run_in_order (J : Type) {capacity : Nat} (place : 0 < capacity) :
    ∃ p : Pool J, make ⟨capacity, 1⟩ = .ok p ∧
      ∀ (done : List (Act J)) (s : Service J), (start p).acts? done = some s →
        s.pool.queue.length ≤ capacity ∧
        s.posted = posts done ∧
        (s.pool.ran ++ s.pool.running ++ s.pool.queue ++ s.discarded).Perm s.posted ∧
        (s.pool.ran ++ s.pool.running ++ s.pool.queue).Sublist s.posted ∧
        s.discarded.length = s.pool.overrun ∧
        (∀ a s', s.act? a = some s' → s'.discarded = s.discarded ∨
          ∃ job oldest rest, a = .post job .overrunOldest ∧ s.pool.queue = oldest :: rest ∧
            s.pool.queue.length = capacity ∧ s'.discarded = s.discarded ++ [oldest] ∧
            s'.pool.queue = rest ++ [job]) ∧
        (∀ job, (∃ s', s.act? (.post job .block) = some s') ↔
          s.pool.closed = false ∧ s.pool.queue.length < capacity) ∧
        (s.pool.gone = 1 → s.pool.queue = [] ∧ s.pool.running = [] ∧
          (s.pool.ran ++ s.discarded).Perm s.posted ∧ s.pool.ran.Sublist s.posted) ∧
        (s.pool.closed = true → ∀ (more : List (Act J)) (s' : Service J),
          s.acts? more = some s' →
            more.length ≤ 2 * s.pool.queue.length + s.pool.running.length + 1 ∧
            ((∀ a, s'.act? a = none) → s'.pool.gone = 1)) := by
  refine ⟨fresh ⟨capacity, 1⟩, ?_, fun done s happened => ?_⟩
  · unfold make
    rw [if_neg]
    simpa using Nat.ne_of_gt place
  obtain ⟨turn, sizes, posted⟩ := (Service.inTurn_start ⟨capacity, 1⟩).acts place rfl happened
  have queueSize : s.pool.size.queue = capacity := by rw [sizes]
  have one : s.pool.size.threads = 1 := by rw [sizes]
  obtain ⟨split, order⟩ := turn.split
  refine ⟨queueSize ▸ turn.room, posted, split, order, turn.counted, ?_, ?_, ?_, ?_⟩
  · intro a s' possible
    -- Only a posted job can discard another, and it is the oldest of a full queue.
    have discards := (turn.act place sizes possible).1.discards
    rw [queueSize] at discards
    exact discards
  · intro job
    rw [Service.act?_block_iff, queueSize]
  · intro gone
    obtain ⟨-, queue⟩ := turn.ended.resolve_left (by omega)
    have idle : s.pool.running = [] := by
      apply List.eq_nil_of_length_eq_zero
      have := turn.single
      omega
    rw [queue, idle, List.append_nil, List.append_nil] at split order
    exact ⟨queue, idle, split, order⟩
  · intro closed more s' happens
    obtain ⟨closed', bound⟩ := turn.length_le place sizes closed happens
    obtain ⟨turn', sizes', -⟩ := turn.acts place sizes happens
    refine ⟨?_, fun stuck => ?_⟩
    · unfold Service.remaining at bound
      omega
    · -- In a closed pool only a worker that is gone has nothing left to do.
      have all := Service.gone_of_stuck closed' stuck
      have single := turn'.single
      rw [sizes'] at all
      dsimp only at all
      omega

/-- Four jobs for a queue of two: the second one is discarded while the first one runs, and the pool
is closed while two are waiting. -/
theorem four_jobs_run_in_order :
    let done : List (Act Nat) :=
      [.post 1 .block, .take, .post 2 .block, .post 3 .overrunOldest, .post 4 .overrunOldest,
        .close, .complete 0, .take, .complete 0, .take, .complete 0, .leave]
    let s : Service Nat := ⟨⟨⟨2, 1⟩, [], [], [1, 3, 4], 1, true, 1⟩, [1, 2, 3, 4], [2]⟩
    0 < 2 ∧ make ⟨2, 1⟩ = .ok (fresh ⟨2, 1⟩ : Pool Nat) ∧
      (start (fresh ⟨2, 1⟩)).acts? done = some s ∧ s.pool.gone = 1 ∧
      (s.pool.ran ++ s.discarded).Perm s.posted ∧ s.pool.ran.Sublist s.posted := by
  intro done s
  obtain ⟨p, made, kept⟩ := jobs_run_in_order Nat (show 0 < 2 by decide)
  cases made
  have happened : (start (fresh ⟨2, 1⟩)).acts? done = some s := rfl
  obtain ⟨-, -, -, -, -, -, -, ended, -⟩ := kept done s happened
  obtain ⟨-, -, split, order⟩ := ended rfl
  exact ⟨by decide, rfl, happened, rfl, split, order⟩

end LogTopology.Pool
