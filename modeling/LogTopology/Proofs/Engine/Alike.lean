import LogTopology.Proofs.Sink.Ways
/-!
# Engines that jobs cannot tell apart

A job sees the sinks of the engine, what they act on, and the sinks and the pattern of its logger.
It does not see what time it is, the levels of loggers, whether they deliver at once, the registry
or the pools. Engines in which a job sees the same are alike (`Alike`), and they stay so when the
same job runs in both (`Alike.run`), which hands the same lines to the same sinks in the same order
(`Alike.deliveries_eq`). A job changes nothing but what it sees (`stays_run`).

Gates and marks do nothing to the sinks.

Flushing goes through fans, target by target, and stops at a failure, so the law for it is stated
for any two functions that act on leaves and match (`Matches`, `flush_related`), by induction on the
sinks. Writing needs no such law: a job that writes hands its lines to the leaves one after the
other (`run_write`).

Being alike is an equivalence. Engines that are alike and do not differ in what no job changes are
the same (`Alike.eq_of_stays`), which is how equality comes back in the end.
-/

namespace LogTopology

open Console (Stream)

/-- The surroundings at no time in particular. -/
def World.still (w : World) : World :=
  { w with now := default }

/-- Surroundings are known by what they are at no time in particular and by the time. -/
theorem World.eq_of_still {w w' : World} (still : w.still = w'.still) (now : w.now = w'.now) :
    w = w' := by
  calc
    w = { w.still with now := w.now } := rfl
    _ = { w'.still with now := w'.now } := by rw [still, now]
    _ = w' := rfl

/-- The part of a logger that its jobs need. -/
def LoggerState.core (l : LoggerState) : Pattern × List SinkRef :=
  (l.pattern, l.sinks)

/-! ## Leaves and the time -/

namespace Leaf

/-- What a leaf does with a line does not depend on what time it is when it is done. -/
theorem log_still (record : Record) (line : Line) (leaf : Leaf) (w : World) :
    leaf.log record line w.still =
      ((leaf.log record line w).1, (leaf.log record line w).2.1,
        (leaf.log record line w).2.2.still) := by
  cases leaf with
  | console stream coloured => cases stream <;> rfl
  | debugOutput | null | basic | rotating | daily | syslog => rfl

/-- Flushing a leaf does not depend on the time. -/
theorem flush_still (leaf : Leaf) (w : World) :
    leaf.flush w.still =
      ((leaf.flush w).1, (leaf.flush w).2.1, (leaf.flush w).2.2.still) := by
  cases leaf <;> rfl

/-- Leaves do not move the clock. -/
theorem log_now (record : Record) (line : Line) (leaf : Leaf) (w : World) :
    (leaf.log record line w).2.2.now = w.now := by
  cases leaf with
  | console stream coloured => cases stream <;> rfl
  | debugOutput | null | basic | rotating | daily | syslog => rfl

/-- Flushing a leaf does not change the time. -/
theorem flush_now (leaf : Leaf) (w : World) : (leaf.flush w).2.2.now = w.now := by
  cases leaf <;> rfl

end Leaf

/-! ## Flushing in two states -/

namespace SinkRef

variable {σ τ ε : Type} {f : Nat → σ → Option ε × σ} {g : Nat → τ → Option ε × τ}
  {related : σ → τ → Prop}

/-- Leaves fail alike in related states, and leave related states. -/
def Matches (f : Nat → σ → Option ε × σ) (g : Nat → τ → Option ε × τ) (related : σ → τ → Prop) :
    Prop :=
  ∀ id s t, related s t → (f id s).1 = (g id t).1 ∧ related (f id s).2 (g id t).2

mutual

/-- Where leaves match, so do sinks. -/
theorem flush_related (leaves : Matches f g related) : (sink : SinkRef) → ∀ {s t}, related s t →
    (sink.flush f s).1 = (sink.flush g t).1 ∧ related (sink.flush f s).2 (sink.flush g t).2
  | leaf id, s, t, h => by
    rw [flush, flush]
    exact leaves id s t h
  | fan _ targets, s, t, h => by
    rw [flush, flush]
    exact flushUntil_related leaves targets h

/-- Flushing target by target stops alike in related states, and leaves related states. -/
theorem flushUntil_related (leaves : Matches f g related) :
    (sinks : List SinkRef) → ∀ {s t}, related s t →
      (flushUntil f sinks s).1 = (flushUntil g sinks t).1 ∧
        related (flushUntil f sinks s).2 (flushUntil g sinks t).2
  | [], s, t, h => by
    rw [flushUntil, flushUntil]
    exact ⟨rfl, h⟩
  | sink :: sinks, s, t, h => by
    obtain ⟨fault, later⟩ := flush_related leaves sink h
    rw [flushUntil, flushUntil]
    generalize sink.flush f s = left at fault later
    generalize sink.flush g t = right at fault later
    obtain ⟨fault₁, s'⟩ := left
    obtain ⟨fault₂, t'⟩ := right
    cases fault
    cases fault₁ with
    | some e => exact ⟨rfl, later⟩
    | none => exact flushUntil_related leaves sinks later

end

/-- Flushing all sinks of a list leaves related states related. -/
theorem flushEach_related (leaves : Matches f g related) (sinks : List SinkRef) {s : σ} {t : τ}
    (h : related s t) : related (flushEach f sinks s) (flushEach g sinks t) := by
  induction sinks generalizing s t with
  | nil => exact h
  | cons sink sinks ih =>
    rw [flushEach, flushEach]
    exact ih (flush_related leaves sink h).2

end SinkRef

namespace Engine

/-- Two engines that jobs cannot tell apart. -/
structure Alike (e d : Engine) : Prop where
  world : e.world.still = d.world.still
  sinks : e.sinks = d.sinks
  cores : e.loggers.map LoggerState.core = d.loggers.map LoggerState.core

/-- What no job changes. -/
structure Stays (before after : Engine) : Prop where
  now : after.world.now = before.world.now
  loggers : after.loggers = before.loggers
  pools : after.pools = before.pools
  registry : after.registry = before.registry
  shared : after.shared = before.shared
  gates : after.gates = before.gates

/-- A line that was handed to a leaf, with its record. -/
structure Delivery where
  sink : Nat
  record : Record
  line : Line
  deriving DecidableEq, Repr

/-- Hands a line to a leaf. -/
def deliver (e : Engine) (x : Delivery) : Engine :=
  (writeLeaf x.record x.line x.sink e).2

/-- What the jobs of a logger see of it. -/
def core? (e : Engine) (logger : Nat) : Option (Pattern × List SinkRef) :=
  e.loggers[logger]?.map LoggerState.core

/-- The lines that a job hands to leaves, in order. -/
def deliveries (e : Engine) : Job → List Delivery
  | .write logger record =>
    match e.core? logger with
    | none => []
    | some (pattern, sinks) =>
      (SinkRef.openEnds e.threshold record.level (SinkRef.waysFrom 0 sinks)).map fun sink =>
        ⟨sink, record, e.line pattern record⟩
  | _ => []

variable {e d : Engine}

/-! ## Alike -/

theorem Alike.refl (e : Engine) : Alike e e :=
  ⟨rfl, rfl, rfl⟩

theorem Alike.symm (h : Alike e d) : Alike d e :=
  ⟨h.world.symm, h.sinks.symm, h.cores.symm⟩

theorem Alike.trans {e₁ e₂ e₃ : Engine} (first : Alike e₁ e₂) (second : Alike e₂ e₃) :
    Alike e₁ e₃ :=
  ⟨first.world.trans second.world, first.sinks.trans second.sinks,
    first.cores.trans second.cores⟩

/-- In engines that are alike every sink has the same level. -/
theorem Alike.threshold_eq (h : Alike e d) : e.threshold = d.threshold := by
  funext sink
  rw [threshold, threshold, h.sinks]

/-- In engines that are alike every leaf has the same state. -/
theorem Alike.leaf?_eq (h : Alike e d) (sink : Nat) : e.leaf? sink = d.leaf? sink := by
  rw [leaf?, leaf?, h.sinks]

/-- In engines that are alike a record becomes the same line: the line has the time of the record.
-/
theorem Alike.line_eq (h : Alike e d) (p : Pattern) (r : Record) : e.line p r = d.line p r := by
  have process : e.world.still.process = d.world.still.process := by rw [h.world]
  rw [line, line]
  exact congrArg (p.format · r) process

/-- In engines that are alike a job finds the same sinks and the same pattern. -/
theorem Alike.core?_eq (h : Alike e d) (logger : Nat) : e.core? logger = d.core? logger := by
  rw [core?, core?, ← List.getElem?_map, ← List.getElem?_map, h.cores]

/-- Giving a leaf the same state in both keeps engines alike, whatever the two clocks show. -/
theorem Alike.putLeaf (h : Alike e d) {w w' : World} (still : w.still = w'.still) (sink : Nat)
    (leaf : Leaf) : Alike (e.putLeaf sink leaf w) (d.putLeaf sink leaf w') :=
  ⟨still, by rw [Engine.putLeaf, Engine.putLeaf, h.sinks], h.cores⟩

/-- Something that leaves do at any time leaves engines alike. -/
theorem Alike.actOnLeaf (h : Alike e d) {act : Leaf → World → Option FileError × Leaf × World}
    (timeless : ∀ leaf w, act leaf w.still =
      ((act leaf w).1, (act leaf w).2.1, (act leaf w).2.2.still))
    (sink : Nat) (leaf : Leaf) :
    (act leaf e.world).1 = (act leaf d.world).1 ∧
      Alike (e.putLeaf sink (act leaf e.world).2.1 (act leaf e.world).2.2)
        (d.putLeaf sink (act leaf d.world).2.1 (act leaf d.world).2.2) := by
  have same := timeless leaf e.world
  rw [h.world, timeless leaf d.world] at same
  obtain ⟨fault, rest⟩ := Prod.mk.inj same
  obtain ⟨leaf', world⟩ := Prod.mk.inj rest
  refine ⟨fault.symm, ?_⟩
  rw [leaf']
  exact h.putLeaf world.symm sink _

/-- Flushing a leaf fails alike in engines that are alike, and keeps them so. -/
theorem Alike.flushLeaf (h : Alike e d) (sink : Nat) :
    (flushLeaf sink e).1 = (flushLeaf sink d).1 ∧
      Alike (flushLeaf sink e).2 (flushLeaf sink d).2 := by
  unfold Engine.flushLeaf
  rw [h.leaf?_eq]
  cases d.leaf? sink with
  | none => exact ⟨rfl, h⟩
  | some leaf => exact h.actOnLeaf Leaf.flush_still sink leaf

/-- Handing over a line keeps engines alike. -/
theorem Alike.deliver (h : Alike e d) (x : Delivery) : Alike (e.deliver x) (d.deliver x) := by
  unfold Engine.deliver writeLeaf
  rw [h.leaf?_eq]
  cases d.leaf? x.sink with
  | none => exact h
  | some leaf => exact (h.actOnLeaf (Leaf.log_still x.record x.line) x.sink leaf).2

/-! ## What jobs do -/

/-- A job that writes hands its lines to the leaves, one after the other. -/
theorem run_write (e : Engine) (logger : Nat) (r : Record) :
    e.run (.write logger r) = (e.deliveries (.write logger r)).foldl deliver e := by
  have each : ∀ line sinks (e : Engine), (SinkRef.writeEach (writeLeaf r line) sinks e).2 =
      (sinks.map fun sink => Delivery.mk sink r line).foldl deliver e := by
    intro line sinks
    induction sinks with
    | nil => exact fun _ => rfl
    | cons sink sinks ih => exact fun e => ih _
  rw [run, deliveries, core?]
  cases e.loggers[logger]? with
  | none => rfl
  | some l =>
    dsimp only [Option.map_some, LoggerState.core]
    rw [← each, logToAll, SinkRef.logAll_eq_writeEach _ _ _ _ 0]
    rfl

/-- A job that flushes flushes the sinks of its logger. -/
theorem run_flush (e : Engine) (logger : Nat) :
    e.run (.flush logger) = SinkRef.flushEach flushLeaf ((e.core? logger).elim [] Prod.snd) e := by
  rw [run, core?]
  cases e.loggers[logger]? with
  | none => rfl
  | some l => rfl

/-- In engines that are alike a job hands the same lines to the same sinks. -/
theorem Alike.deliveries_eq (h : Alike e d) (job : Job) : e.deliveries job = d.deliveries job := by
  cases job with
  | write logger r => simp only [deliveries, h.core?_eq, h.threshold_eq, h.line_eq]
  | flush | gate | mark => rfl

/-- Running a job keeps engines alike. -/
theorem Alike.run (h : Alike e d) (job : Job) : Alike (e.run job) (d.run job) := by
  cases job with
  | write logger r =>
    rw [run_write, run_write, h.deliveries_eq]
    generalize d.deliveries (.write logger r) = lines
    induction lines generalizing e d with
    | nil => exact h
    | cons x lines ih => exact ih (h.deliver x)
  | flush logger =>
    rw [run_flush, run_flush, h.core?_eq]
    exact SinkRef.flushEach_related (fun sink _ _ h => h.flushLeaf sink) _ h
  | gate | mark => exact h

/-! ## What jobs leave -/

theorem Stays.refl (e : Engine) : Stays e e :=
  ⟨rfl, rfl, rfl, rfl, rfl, rfl⟩

theorem Stays.trans {e₁ e₂ e₃ : Engine} (first : Stays e₁ e₂) (second : Stays e₂ e₃) :
    Stays e₁ e₃ :=
  ⟨second.now.trans first.now, second.loggers.trans first.loggers, second.pools.trans first.pools,
    second.registry.trans first.registry, second.shared.trans first.shared,
    second.gates.trans first.gates⟩

theorem Stays.symm (h : Stays e d) : Stays d e :=
  ⟨h.now.symm, h.loggers.symm, h.pools.symm, h.registry.symm, h.shared.symm, h.gates.symm⟩

/-- Engines that jobs cannot tell apart are the same if they do not differ in what no job
changes. -/
theorem Alike.eq_of_stays (h : Alike e d) (stays : Stays d e) : e = d := by
  have world := World.eq_of_still h.world stays.now
  have sinks := h.sinks
  obtain ⟨-, loggers, pools, registry, shared, gates⟩ := stays
  cases e
  cases d
  rw [Engine.mk.injEq]
  exact ⟨world, sinks, loggers, pools, registry, shared, gates⟩

/-- Handing over a line changes nothing but the leaf and what it acts on. -/
theorem stays_deliver (e : Engine) (x : Delivery) : Stays e (e.deliver x) := by
  unfold deliver writeLeaf
  cases e.leaf? x.sink with
  | none => exact .refl e
  | some leaf => exact ⟨Leaf.log_now x.record x.line leaf e.world, rfl, rfl, rfl, rfl, rfl⟩

/-- Flushing a leaf changes nothing but the leaf and what it acts on. -/
theorem stays_flushLeaf (e : Engine) (sink : Nat) : Stays e (flushLeaf sink e).2 := by
  unfold flushLeaf
  cases e.leaf? sink with
  | none => exact .refl e
  | some leaf => exact ⟨Leaf.flush_now leaf e.world, rfl, rfl, rfl, rfl, rfl⟩

/-- A job changes nothing but the leaves and what they act on. -/
theorem stays_run (e : Engine) (job : Job) : Stays e (e.run job) := by
  cases job with
  | write logger r =>
    rw [run_write]
    generalize e.deliveries (.write logger r) = lines
    induction lines generalizing e with
    | nil => exact .refl e
    | cons x lines ih => exact (stays_deliver e x).trans (ih _)
  | flush logger =>
    -- the engine is compared with itself, so that the relation speaks of one engine alone
    have leaves : SinkRef.Matches flushLeaf flushLeaf fun s t => s = t ∧ Stays e s := by
      rintro sink s _ ⟨rfl, stays⟩
      exact ⟨rfl, rfl, stays.trans (stays_flushLeaf s sink)⟩
    rw [run_flush]
    exact (SinkRef.flushEach_related leaves _ ⟨rfl, .refl e⟩).2
  | gate | mark => exact .refl e

/-! ## Pools -/

/-- Jobs do not see pools. -/
theorem setPool_alike (e : Engine) (pool : Nat) (p : Pool Job) : Alike (e.setPool pool p) e :=
  ⟨rfl, rfl, rfl⟩

/-- The pool of a number is the one that was put there. -/
theorem getElem?_setPool {pool : Nat} {p : Pool Job} (here : e.pools[pool]? = some p)
    (p' : Pool Job) : (e.setPool pool p').pools[pool]? = some p' :=
  List.getElem?_set_self (List.getElem?_eq_some_iff.mp here).1

/-- A job leaves the pools as they are. -/
theorem getElem?_pools_run {pool : Nat} {p : Pool Job} (here : e.pools[pool]? = some p)
    (job : Job) : (e.run job).pools[pool]? = some p := by
  rw [(stays_run e job).pools]
  exact here

/-- Of two pools that are put in one place the second counts. -/
theorem setPool_setPool (e : Engine) (pool : Nat) (p p' : Pool Job) :
    (e.setPool pool p).setPool pool p' = e.setPool pool p' := by
  simp [setPool]

/-- Putting the same pool into engines of which one stays as the other keeps this. -/
theorem Stays.setPool (h : Stays e d) (pool : Nat) (p : Pool Job) :
    Stays (e.setPool pool p) (d.setPool pool p) :=
  ⟨h.now, h.loggers, congrArg (·.set pool p) h.pools, h.registry, h.shared, h.gates⟩

/-- It makes no difference whether a pool changes before a job is run or after. -/
theorem run_setPool (e : Engine) (pool : Nat) (p : Pool Job) (job : Job) :
    (e.setPool pool p).run job = (e.run job).setPool pool p := by
  have before := stays_run (e.setPool pool p) job
  have after := (stays_run e job).setPool pool p
  have alike := ((setPool_alike e pool p).run job).trans (setPool_alike (e.run job) pool p).symm
  exact alike.eq_of_stays (after.symm.trans before)

end Engine

end LogTopology
