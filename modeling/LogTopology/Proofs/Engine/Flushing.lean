import LogTopology.Proofs.Engine.Barrier
import LogTopology.Proofs.Engine.Loggers
import LogTopology.Proofs.Engine.Traffic
import LogTopology.Proofs.Sink.Flushing
/-!
# Which leaves a logger flushes

When a logger is flushed, all sinks of its list are, whatever becomes of each of them: at once, by
the worker of its pool, or when all registered loggers are flushed in turn. A sink that forwards
stops at its first target that fails. So a leaf is flushed if there is a way to it that no leaf bars
which fails and to which an earlier way from the same sink leads. In particular all leaves of the
logger are flushed if those that fail have none behind them in the same sink.

A record goes on behind a sink that fails, and so do the flushes of a logger, but not those of a
sink that forwards: what stands behind the failure keeps what it holds back
(`flush_misses_leaf_behind_fault`).
-/

namespace LogTopology.Engine

open SinkRef (Leads UpToFault noting flushCalls)
open Traffic (AtRest)

variable {e : Engine} {logger : Nat} {l : LoggerState}

/-- A flush is dispatched as a job, and waits for room if the logger has a pool. -/
theorem flush_eq_dispatch (made : e.loggers[logger]? = some l) :
    e.flush logger = e.dispatch l (.flush logger) (some .block) := by
  rw [flush, made]

/-- The job of a flush flushes the sinks of the logger, one after the other. -/
theorem run_flush_eq (made : e.loggers[logger]? = some l) :
    e.run (.flush logger) = SinkRef.flushEach flushLeaf l.sinks e := by
  rw [run, made]

/-- The worker of a pool flushes the sinks of a logger when it comes to the job. -/
theorem work?_flush (made : e.loggers[logger]? = some l) {pool : Nat} {p p' : Pool Job}
    (here : e.pools[pool]? = some p) (taken : p.take? = some (.flush logger, p')) :
    e.work? pool = some ((SinkRef.flushEach flushLeaf l.sinks e).setPool pool
      (p'.complete (p'.running.length - 1))) := by
  rw [work?, here, Option.bind_eq_bind, Option.bind_some, taken]
  show some _ = _
  rw [run_flush_eq made]

/-- A flush of all loggers comes to a registered one after those before it. -/
theorem flushAll_eq {before after : List (String × Nat)} {name : String}
    (registered : e.registry = before ++ (name, logger) :: after) :
    e.flushAll =
      (after.map Prod.snd).foldl flush (((before.map Prod.snd).foldl flush e).flush logger) := by
  rw [flushAll, registered, List.map_append, List.foldl_append]
  rfl

/-- When a logger is flushed, every sink of its list is flushed up to the first leaf that fails, which
is told by notes that change nothing. Let the notes tell which leaves fail, as they do when it is
always the same. Then a leaf is flushed if and only if a way leads to it that no way to a leaf that
fails precedes; all are, if no leaf that fails precedes another one. A logger that delivers at once flushes its sinks so when it is asked to, another one
posts the job, and the worker does the same when it takes it, which is at once if it is idle; and a
flush of all loggers comes to every registered one. -/
theorem flush_goes_up_to_faults (made : e.loggers[logger]? = some l) :
    (∀ (σ ε : Type) (flush : Nat → σ → Option ε × σ) (s : σ),
      let calls := flushCalls flush l.sinks s
      SinkRef.flushEach (noting flush) l.sinks (s, []) = (SinkRef.flushEach flush l.sinks s, calls) ∧
      (∃ rows, calls = rows.flatten ∧
        List.Forall₂ (fun t row => ∃ told, UpToFault t.ends row told) l.sinks rows) ∧
      (∀ fails : Nat → Prop, (∀ id s, (flush id s).1.isSome ↔ fails id) →
        ∀ c ∈ calls, c.2.isSome ↔ fails c.1) ∧
      ∀ fails : Nat → Prop, (∀ c ∈ calls, c.2.isSome ↔ fails c.1) →
        (∀ id, id ∈ calls.map Prod.fst ↔ ∃ w, Leads l.sinks w ∧ w.leaf = id ∧
          ∀ v, Leads l.sinks v → v.Precedes w → ¬ fails v.leaf) ∧
        ((∀ v w, Leads l.sinks v → Leads l.sinks w → v.Precedes w → ¬ fails v.leaf) →
          ∀ w, Leads l.sinks w → w.leaf ∈ calls.map Prod.fst)) ∧
    (l.dispatch = .direct → e.flush logger = SinkRef.flushEach flushLeaf l.sinks e) ∧
    (∀ pool policy, l.dispatch = .pooled pool policy →
      e.flush logger = e.post pool (.flush logger) .block ∧
      ∀ p, AtRest pool p e → e.flush logger =
        (SinkRef.flushEach flushLeaf l.sinks e).setPool pool
          { p with ran := p.ran ++ [.flush logger] }) ∧
    (∀ pool p p', e.pools[pool]? = some p → p.take? = some (.flush logger, p') →
      e.work? pool = some ((SinkRef.flushEach flushLeaf l.sinks e).setPool pool
        (p'.complete (p'.running.length - 1)))) ∧
    (∀ before name after, e.registry = before ++ (name, logger) :: after →
      let there := (before.map Prod.snd).foldl flush e
      there.loggers[logger]? = some l ∧
        e.flushAll = (after.map Prod.snd).foldl flush (there.flush logger)) := by
  refine ⟨?_, ?_, ?_, ?_, ?_⟩
  · intro σ ε flush s calls
    refine ⟨SinkRef.flushEach_noting flush l.sinks s, SinkRef.exists_rows flush l.sinks s, ?_, ?_⟩
    · exact fun fails same => SinkRef.notes_tell flush same l.sinks s
    · exact fun fails tell => ⟨fun id => SinkRef.mem_flushCalls_iff tell,
        fun spared w leads => SinkRef.mem_flushCalls_of_spared tell spared leads⟩
  · intro direct
    rw [flush_eq_dispatch made, dispatch, direct]
    exact run_flush_eq made
  · intro pool policy pooled
    have posts : e.flush logger = e.post pool (.flush logger) .block := by
      rw [flush_eq_dispatch made, dispatch, pooled]
      rfl
    refine ⟨posts, fun p rest => ?_⟩
    rw [posts, rest.post_eq fun _ => rfl, run_flush_eq made]
  · exact fun pool p p' => work?_flush made
  · intro before name after registered there
    exact ⟨by rw [loggers_foldl_flush, made], flushAll_eq registered⟩

/-- A logger that writes to a file and to a full device through one sink, and to another file. -/
def fullBehindFile : Engine :=
  ⟨⟨⟨[(["g.log"], .file 0), (["h.log"], .file 1)], [[], []]⟩, [], [], .never, ⟨0, 0, 0⟩, 7⟩,
    [⟨.trace, some (.basic ⟨.full, none, []⟩)⟩, ⟨.trace, some (.basic ⟨.file 0, none, []⟩)⟩,
      ⟨.trace, none⟩, ⟨.trace, some (.basic ⟨.file 1, none, []⟩)⟩],
    [⟨"app", .info, ⟨"%v", [.part .payload]⟩, [.fan 2 [.leaf 1, .leaf 0], .leaf 3], .direct⟩],
    [], [("app", 0)], none, 0⟩

/-- A full device with nothing behind it in its sink bars no leaf. -/
theorem flush_reaches_leaves_around_fault :
    let e := fullBehindFile.log 0 .info "x"
    let sinks : List SinkRef := [.fan 2 [.leaf 1, .leaf 0], .leaf 3]
    let calls := flushCalls flushLeaf sinks e
    ∃ l, e.loggers[0]? = some l ∧ l.sinks = sinks ∧
      calls = [(1, none), (0, some .storageFull), (3, none)] ∧
      (∀ c ∈ calls, c.2.isSome ↔ c.1 = 0) ∧
      (∀ v w, Leads sinks v → Leads sinks w → v.Precedes w → ¬ v.leaf = 0) ∧
      (∀ w, Leads sinks w → w.leaf ∈ calls.map Prod.fst) ∧
      e.flush 0 = SinkRef.flushEach flushLeaf sinks e ∧ (e.flush 0).heldBack 3 = [] := by
  intro e sinks calls
  have told : calls = [(1, none), (0, some .storageFull), (3, none)] := by decide +kernel
  have tell : ∀ c ∈ calls, c.2.isSome ↔ c.1 = 0 := by
    rw [told]
    decide
  have spared : ∀ v ∈ SinkRef.waysFrom 0 sinks, ∀ w ∈ SinkRef.waysFrom 0 sinks,
      v.Precedes w → ¬ v.leaf = 0 := by
    decide +kernel
  have spared : ∀ v w, Leads sinks v → Leads sinks w → v.Precedes w → ¬ v.leaf = 0 :=
    fun v w vLeads wLeads =>
      spared v (SinkRef.mem_waysFrom_of_leads vLeads) w (SinkRef.mem_waysFrom_of_leads wLeads)
  obtain ⟨l, made, list, direct⟩ :
      ∃ l, e.loggers[0]? = some l ∧ l.sinks = sinks ∧ l.dispatch = .direct := ⟨_, rfl, rfl, rfl⟩
  obtain ⟨reached, atOnce, -⟩ := flush_goes_up_to_faults made
  rw [list] at reached atOnce
  obtain ⟨-, -, -, reached⟩ := reached Engine FileError flushLeaf e
  refine ⟨l, made, list, told, tell, spared, (reached (· = 0) tell).2 spared, atOnce direct, ?_⟩
  decide +kernel

/-- A full device in front of a file in one sink. The record has come to the file and is held back
there; the flush stops at the device, so that the file still holds it back, which would have written
it when asked. The same goes for a flush of all loggers. -/
theorem flush_misses_leaf_behind_fault :
    let e := (fullBeforeFile.atOnce.register 0).log 0 .info "x"
    let sinks : List SinkRef := [.fan 2 [.leaf 0, .leaf 1]]
    (e.loggers[0]?.map fun l => (l.dispatch, l.sinks.flatMap SinkRef.ends)) = some (.direct, [0, 1]) ∧
      Leads sinks ⟨[0, 1], [2], 1⟩ ∧ flushCalls flushLeaf sinks e = [(0, some .storageFull)] ∧
      e.heldBack 1 = Text.encode ['x', '\n'] ∧ (e.flush 0).heldBack 1 = Text.encode ['x', '\n'] ∧
      e.flushAll.heldBack 1 = Text.encode ['x', '\n'] ∧ (e.flushLeaf 1).2.heldBack 1 = [] := by
  intro e sinks
  have leads : Leads sinks ⟨[0, 1], [2], 1⟩ := .fan (w := ⟨[1], [], 1⟩) rfl (.leaf rfl)
  exact ⟨by decide +kernel, leads, by decide +kernel⟩

end LogTopology.Engine
