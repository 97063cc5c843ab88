import LogTopology.Proofs.Engine.Clients
import Mathlib.Data.List.Nodup
/-!
# What a flush waits for

A flush whose job ran has waited for the records of its logger: all that had been queued before were
written, unless they were discarded and counted, and the sinks were flushed afterwards (`Waited`).
But a logger that does not wait for room may discard the job of a flush that another client waits
for. Such a flush returns at once, with the sinks not flushed, and the worker may still be at one
record of the logger (`Cut`); so the flush is no barrier where a logger of the pool does not wait
for room (`flush_returns_early`).

A flush of a sink that forwards stops at the first target that fails, whatever the course.

`Kept` is the invariant of a pool with clients, and each of them goes by the numbers of the jobs:
numbers go up in the queue and in what ran, so a job that ran has all jobs of smaller numbers before
it, or they were discarded. `flush_waits_for_records` says which of the two outcomes a flush has in
any course, and that clients never wait for a flush that can neither return nor be worked for
(`Kept.exists_move`).

One worker is supposed. With more of them a flush may run while another worker is still at a record.
-/

namespace LogTopology.Engine

namespace Clients

/-- A flush has waited: its job ran behind the records that its logger had queued before, as far as
they were not discarded, and flushed the sinks when all of them had been written. -/
structure Waited (e : Engine) (s : Clients) (number logger : Nat) (sinks : List SinkRef)
    (before after : List Numbered) : Prop where
  ran : s.service.pool.ran = before ++ (number, .flush logger) :: after
  earlier : ∀ n record, n < number → (n, .write logger record) ∈ s.service.posted →
    (n, .write logger record) ∈ before ∨ (n, .write logger record) ∈ s.service.discarded
  engine : s.engine = (SinkRef.flushEach flushLeaf sinks (e.runAll before)).runAll after

/-- A flush was cut short: its job was discarded for another one, and the worker may be at a record
that its logger had queued before. -/
structure Cut (e : Engine) (pool : Nat) (s : Clients) (number logger : Nat) : Prop where
  discarded : (number, .flush logger) ∈ s.service.discarded
  overruns : ∃ other, e.policyIn? pool other = some .overrunOldest
  earlier : ∀ n record, n < number → (n, .write logger record) ∈ s.service.posted →
    (n, .write logger record) ∈ s.service.pool.ran ∨
      (n, .write logger record) ∈ s.service.discarded ∨
      s.service.pool.running = [(n, .write logger record)]

variable {e : Engine} {pool capacity number logger : Nat} {s s' : Clients} {job other : Numbered}

/-! ## Where jobs are -/

/-- The numbers of the posted jobs go up in the order of the posts. -/
theorem Kept.posted_ordered (h : Kept e pool capacity s) :
    s.service.posted.Pairwise fun a b => a.1 < b.1 := by
  rw [← List.pairwise_map, h.numbered]
  exact List.pairwise_lt_range

/-- The numbers go up from the jobs that ran over the one that is running to the queued ones. -/
theorem Kept.ordered (h : Kept e pool capacity s) :
    (s.service.pool.ran ++ s.service.pool.running ++ s.service.pool.queue).Pairwise
      fun a b => a.1 < b.1 :=
  h.posted_ordered.sublist h.turn.split.2

/-- A posted job ran, is running, is queued, or was discarded. -/
theorem Kept.mem_posted_iff (h : Kept e pool capacity s) :
    job ∈ s.service.posted ↔ job ∈ s.service.pool.ran ∨ job ∈ s.service.pool.running ∨
      job ∈ s.service.pool.queue ∨ job ∈ s.service.discarded := by
  rw [← h.turn.split.1.mem_iff]
  simp only [List.mem_append, or_assoc]

/-- Jobs are known by their numbers. -/
theorem Kept.eq_of_number (h : Kept e pool capacity s) (here : job ∈ s.service.posted)
    (there : other ∈ s.service.posted) (same : job.1 = other.1) : job = other := by
  have nodup : (s.service.posted.map Prod.fst).Nodup := by
    rw [h.numbered]
    exact List.nodup_range
  exact List.inj_on_of_nodup_map nodup here there same

/-- What was posted before a job that ran has run before it, or was discarded. -/
theorem Kept.earlier_of_ran {before after : List Numbered} (h : Kept e pool capacity s)
    (ran : s.service.pool.ran = before ++ job :: after) (there : other ∈ s.service.posted)
    (earlier : other.1 < job.1) : other ∈ before ∨ other ∈ s.service.discarded := by
  have ordered := h.ordered
  rw [ran, List.append_assoc, List.append_assoc, List.cons_append, List.pairwise_append,
    List.pairwise_cons] at ordered
  have later : other ∉ after ++ (s.service.pool.running ++ s.service.pool.queue) :=
    fun mem => Nat.lt_asymm earlier (ordered.2.1.1 other mem)
  have notSame : other ≠ job := by
    rintro rfl
    exact Nat.lt_irrefl _ earlier
  simp only [List.mem_append, not_or] at later
  rw [h.mem_posted_iff, ran, List.mem_append, List.mem_cons] at there
  rcases there with (first | same | mem) | busy | waits | lost
  · exact .inl first
  · exact absurd same notSame
  · exact absurd mem later.1
  · exact absurd busy later.2.1
  · exact absurd waits later.2.2
  · exact .inr lost

/-- What was posted before a job that was discarded does not wait any more. -/
theorem Kept.earlier_of_discarded (h : Kept e pool capacity s)
    (lost : job ∈ s.service.discarded) (there : other ∈ s.service.posted)
    (earlier : other.1 < job.1) :
    other ∈ s.service.pool.ran ∨ other ∈ s.service.discarded ∨
      s.service.pool.running = [other] := by
  obtain ⟨exits, posted, -, discarded⟩ := h.turn.exits
  have left : job ∈ exits.map Prod.fst := by
    rw [discarded] at lost
    exact (List.filter_sublist.map _).subset lost
  have ordered := h.posted_ordered
  rw [posted, List.pairwise_append] at ordered
  rcases h.mem_posted_iff.mp there with ran | busy | waits | lost'
  · exact .inl ran
  · refine .inr (.inr ?_)
    have single := Nat.le_of_add_right_le h.turn.single
    obtain ⟨i, here, rfl⟩ := List.mem_iff_getElem.mp busy
    exact (Pool.Service.eraseIdx_of_single single here).1
  · exact absurd earlier (Nat.lt_asymm (ordered.2.2 job left other waits))
  · exact .inr (.inl lost')

/-! ## Returning -/

/-- A client that waits has posted its flush, and a flush that returns ran or was discarded. -/
theorem Kept.back (h : Kept e pool capacity s) (back : s.move? pool (.back number) = some s') :
    ∃ logger, (e.policyIn? pool logger).isSome ∧ (number, .flush logger) ∈ s.service.posted ∧
      ((number, .flush logger) ∈ s.service.pool.ran ∨
        (number, .flush logger) ∈ s.service.discarded) := by
  rw [move?] at back
  split at back
  · rename_i allowed
    obtain ⟨waits, ended⟩ := allowed
    obtain ⟨logger, bound, posted⟩ := h.waiting number waits
    obtain ⟨job, mem, same⟩ := List.any_eq_true.mp ended
    have here : job ∈ s.service.posted := by
      rw [h.mem_posted_iff]
      rcases List.mem_append.mp mem with ran | lost
      · exact .inl ran
      · exact .inr (.inr (.inr lost))
    have isFlush := h.eq_of_number here posted (of_decide_eq_true same)
    rw [isFlush] at mem
    exact ⟨logger, bound, posted, List.mem_append.mp mem⟩
  · cases back

/-- A logger that is bound to a pool is there. -/
theorem exists_of_policyIn? (bound : (e.policyIn? pool logger).isSome) :
    ∃ l, e.loggers[logger]? = some l := by
  cases here : e.loggers[logger]? with
  | none => simp [policyIn?, here] at bound
  | some l => exact ⟨l, rfl⟩

/-- A flush that runs behind other jobs flushes the sinks that its logger had at the beginning. -/
theorem run_flush_runAll {l : LoggerState} (here : e.loggers[logger]? = some l)
    (jobs : List Numbered) :
    (e.runAll jobs).run (.flush logger) = SinkRef.flushEach flushLeaf l.sinks (e.runAll jobs) := by
  rw [Engine.run, (stays_runAll e jobs).loggers, here]

/-- A worker that has taken a job can always get done with it. -/
theorem Kept.exists_finish (busy : s.service.pool.running ≠ []) :
    (s.move? pool .finish).isSome := by
  have here := List.length_pos_of_ne_nil busy
  rw [move?, List.getElem?_eq_getElem here, Option.bind_eq_bind, Option.bind_some, atPool?,
    Pool.Service.act?, if_pos here]
  rfl

/-- As long as a client waits for a flush, the flush can return, or the worker can go on. -/
theorem Kept.exists_move (h : Kept e pool capacity s) (waits : number ∈ s.waits) :
    ∃ m ∈ [Move.back number, .take, .finish], (s.move? pool m).isSome := by
  have returns (ended : s.ended number) : (s.move? pool (.back number)).isSome := by
    rw [move?, if_pos ⟨waits, ended⟩]
    rfl
  obtain ⟨logger, -, posted⟩ := h.waiting number waits
  rcases h.mem_posted_iff.mp posted with ran | busy | queued | lost
  · refine ⟨.back number, by simp, returns ?_⟩
    exact List.any_eq_true.mpr ⟨_, List.mem_append_left _ ran, decide_eq_true rfl⟩
  · exact ⟨.finish, by simp, exists_finish (List.ne_nil_of_mem busy)⟩
  · by_cases idle : s.service.pool.running = []
    · refine ⟨.take, by simp, ?_⟩
      obtain ⟨first, rest, queue⟩ := List.exists_cons_of_ne_nil (List.ne_nil_of_mem queued)
      have free : s.service.pool.free = true := by
        rw [Pool.free_iff, idle, h.turn.gone_eq_zero h.held, h.sizes]
        exact Nat.one_pos
      rw [move?, atPool?, Pool.Service.act?, Pool.take?_eq_some.mpr ⟨rest, queue, free, rfl⟩]
      rfl
    · exact ⟨.finish, by simp, exists_finish idle⟩
  · refine ⟨.back number, by simp, returns ?_⟩
    exact List.any_eq_true.mpr ⟨_, List.mem_append_right _ lost, decide_eq_true rfl⟩

end Clients

/-- Clients log and flush through loggers of a pool with one worker, in any course. When a flush
returns, it has waited, or some logger of the pool does not wait for room and the flush was cut
short. What was discarded has been counted, and nobody waits for a flush in vain. -/
theorem flush_waits_for_records {e : Engine} {pool capacity : Nat} {moves : List Move} {s : Clients}
    (place : 0 < capacity) (run : (Clients.start e capacity).moves? pool moves = some s) :
    s.service.discarded.length = s.service.pool.overrun ∧
      (∀ number s', s.move? pool (.back number) = some s' →
        ∃ logger l, e.loggers[logger]? = some l ∧ (number, .flush logger) ∈ s.service.posted ∧
          ((∃ before after, s.Waited e number logger l.sinks before after) ∨
            s.Cut e pool number logger)) ∧
      ∀ number ∈ s.waits, ∃ m ∈ [Move.back number, .take, .finish], (s.move? pool m).isSome := by
  have kept := (Clients.kept_start e pool capacity).moves place run
  refine ⟨kept.turn.counted, ?_, fun number waits => kept.exists_move waits⟩
  intro number s' back
  obtain ⟨logger, bound, posted, ran | lost⟩ := kept.back back
  · obtain ⟨l, here⟩ := Clients.exists_of_policyIn? bound
    obtain ⟨before, after, ran⟩ := List.append_of_mem ran
    refine ⟨logger, l, here, posted, .inl ⟨before, after, ran, ?_, ?_⟩⟩
    · exact fun n record earlier there => kept.earlier_of_ran ran there earlier
    · rw [kept.engine, ran, runAll_append, ← Clients.run_flush_runAll here]
      rfl
  · obtain ⟨l, here⟩ := Clients.exists_of_policyIn? bound
    refine ⟨logger, l, here, posted, .inr ⟨lost, ?_, ?_⟩⟩
    · exact kept.overruns.resolve_left (List.ne_nil_of_mem lost)
    · exact fun n record earlier there => kept.earlier_of_discarded lost there earlier

/-- A logger that waits for room and writes to a full device and then to a file, through one sink;
and a logger of the same pool that does not wait. -/
def fullBeforeFile : Engine :=
  ⟨⟨⟨[(["g.log"], .file 0)], [[]]⟩, [], [], .never, ⟨0, 0, 0⟩, 7⟩,
    [⟨.trace, some (.basic ⟨.full, none, []⟩)⟩, ⟨.trace, some (.basic ⟨.file 0, none, []⟩)⟩,
      ⟨.trace, none⟩],
    [⟨"app", .info, ⟨"%v", [.part .payload]⟩, [.fan 2 [.leaf 0, .leaf 1]], .pooled 0 .block⟩,
      ⟨"db", .info, ⟨"%v", [.part .payload]⟩, [], .pooled 0 .overrunOldest⟩],
    [], [], none, 0⟩

/-- What a sink that writes to a plain file holds back. -/
def heldBack (e : Engine) (sink : Nat) : Text.Bytes :=
  match e.leaf? sink with
  | some (.basic writer) => writer.buffer
  | _ => []

/-- A record. -/
def oneRecord : Record :=
  ⟨"app", .info, ⟨0, 0, 0⟩, 1, "x"⟩

/-- The second record of the logger is discarded, and its flush waits for the first one. -/
theorem flush_waits_behind_discarded :
    let moves : List Move :=
      [.log 0 oneRecord, .take, .log 0 oneRecord, .log 1 oneRecord, .finish, .take, .flush 0,
        .finish, .take, .finish]
    0 < 1 ∧ ∃ s s', (Clients.start fullBeforeFile 1).moves? 0 moves = some s ∧
      s.move? 0 (.back 3) = some s' ∧ s.service.discarded = [(1, .write 0 oneRecord)] ∧
      s.service.pool.overrun = 1 ∧
      ∃ before after, s.Waited fullBeforeFile 3 0 [.fan 2 [.leaf 0, .leaf 1]] before after := by
  intro moves
  have seen : ((Clients.start fullBeforeFile 1).moves? 0 moves).map (fun s =>
      (s.service.posted, s.service.discarded, (s.move? 0 (.back 3)).isSome)) =
      some ([(0, .write 0 oneRecord), (1, .write 0 oneRecord), (2, .write 1 oneRecord),
        (3, .flush 0)], [(1, .write 0 oneRecord)], true) := by decide +kernel
  obtain ⟨s, run, seen⟩ := Option.map_eq_some_iff.mp seen
  obtain ⟨posted, seen⟩ := Prod.mk.inj seen
  obtain ⟨discarded, returns⟩ := Prod.mk.inj seen
  obtain ⟨s', back⟩ := Option.isSome_iff_exists.mp returns
  obtain ⟨counted, waited, -⟩ := flush_waits_for_records (by decide) run
  obtain ⟨logger, l, here, mem, settled⟩ := waited 3 s' back
  have which : logger = 0 := by simpa [posted] using mem
  rw [which] at here settled
  cases here
  refine ⟨by decide, s, s', run, back, discarded, ?_, ?_⟩
  · rw [← counted, discarded]
    rfl
  · refine settled.resolve_right fun cut => ?_
    have lost := cut.discarded
    rw [discarded] at lost
    simp at lost

/-- A flush returns while the worker is at a record that was logged before: its job was discarded for
a record of the other logger. And a flush that did run has not reached the file, which comes behind
a sink that fails: the line is still held back. -/
theorem flush_returns_early :
    ((Clients.start fullBeforeFile 1).moves? 0
        [.log 0 oneRecord, .take, .flush 0, .log 1 oneRecord, .back 1]).map (fun s =>
      (s.waits, s.service.pool.ran, s.service.pool.running, s.service.discarded)) =
        some ([], [], [(0, .write 0 oneRecord)], [(1, .flush 0)]) ∧
    ((Clients.start fullBeforeFile 1).moves? 0
        [.log 0 oneRecord, .take, .finish, .flush 0, .take, .finish, .back 1]).map (fun s =>
      (s.waits, s.service.pool.ran, s.engine.world.disk.bytes 0, s.engine.heldBack 1)) =
        some ([], [(0, .write 0 oneRecord), (1, .flush 0)], [], Text.encode ['x', '\n']) := by
  exact ⟨by decide +kernel, by decide +kernel⟩

end LogTopology.Engine
