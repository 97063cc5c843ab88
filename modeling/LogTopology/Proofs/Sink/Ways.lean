import LogTopology.Engine.Delivery
/-!
# The ways a line takes

A way leads from a list of sinks to a leaf: it takes a place in the list and, while a fan stands
there, a place among the targets of the fan. Two ways differ when they take different places, even
if they come to the same leaf through the same sinks. A way is open to a level when all sinks on it
let the level pass.

A record that is written goes down all open ways, those with the earlier places first. The leaves at
their ends are written to one after the other, whatever becomes of each of them, and the first
failure is the one that is told. `logAll_eq_writeEach` says so for any effect of a write, so that no
write and no failure can change where the line goes. That the levels are looked up before the first
write makes no difference, as no write changes a level (`threshold_writeEach`).

What a leaf does with its line is not told here.
-/

namespace LogTopology

namespace SinkRef

/-- A way from a list of sinks to a leaf: the places that it takes, the fans that it goes through,
and the leaf. -/
structure Way where
  places : List Nat
  fans : List Nat
  leaf : Nat
  deriving DecidableEq, Repr

namespace Way

/-- The way that goes on from a fan at a place. -/
def through (place fan : Nat) (w : Way) : Way :=
  ⟨place :: w.places, fan :: w.fans, w.leaf⟩

/-- Whether all sinks on a way let a level pass. -/
def passes (threshold : Nat → Level) (l : Level) (w : Way) : Bool :=
  (w.fans ++ [w.leaf]).all fun id => (threshold id).allows l

end Way

/-- `Leads sinks w`: the way starts in the list and leads to a leaf. -/
inductive Leads : List SinkRef → Way → Prop where
  | leaf {sinks : List SinkRef} {place id : Nat} (here : sinks[place]? = some (leaf id)) :
      Leads sinks ⟨[place], [], id⟩
  | fan {sinks targets : List SinkRef} {place id : Nat} {w : Way}
      (here : sinks[place]? = some (fan id targets)) (on : Leads targets w) :
      Leads sinks (w.through place id)

/-- The open ways from a list of sinks, each of them once, in the order of the places. -/
structure OpenWays (threshold : Nat → Level) (l : Level) (sinks : List SinkRef) (ways : List Way) :
    Prop where
  ordered : ways.Pairwise fun v w => v.places < w.places
  mem_iff : ∀ w, w ∈ ways ↔ Leads sinks w ∧ w.passes threshold l = true

/-- Writes to leaves one after the other, and tells what became of each write. -/
def writeEach {σ ε : Type} (write : Nat → σ → Option ε × σ) :
    List Nat → σ → List (Option ε) × σ
  | [], s => ([], s)
  | id :: ids, s =>
    let (fault, s) := write id s
    let (faults, s) := writeEach write ids s
    (fault :: faults, s)

/-! ## All ways -/

mutual

/-- The ways that start with a sink at a place. -/
def waysAt (place : Nat) : SinkRef → List Way
  | leaf id => [⟨[place], [], id⟩]
  | fan id targets => (waysFrom 0 targets).map (Way.through place id)

/-- The ways from a list whose first sink stands at a place. -/
def waysFrom (place : Nat) : List SinkRef → List Way
  | [] => []
  | t :: ts => t.waysAt place ++ waysFrom (place + 1) ts

end

section Ways

variable {sinks targets : List SinkRef} {w : Way} {place id : Nat}

/-- To a leaf itself there is one way, which takes its place. -/
theorem mem_waysAt_leaf_iff : w ∈ (leaf id).waysAt place ↔ w = ⟨[place], [], id⟩ := by
  rw [waysAt, List.mem_singleton]

/-- The ways that start with a fan go on as the ways of its targets. -/
theorem mem_waysAt_fan_iff :
    w ∈ (fan id targets).waysAt place ↔ ∃ v ∈ waysFrom 0 targets, v.through place id = w := by
  rw [waysAt, List.mem_map]

/-- The ways from a list are those of its sinks, each with the place that it has in the list. -/
theorem mem_waysFrom_iff :
    w ∈ waysFrom place sinks ↔ ∃ i t, sinks[i]? = some t ∧ w ∈ waysAt (place + i) t := by
  induction sinks generalizing place with
  | nil => simp [waysFrom]
  | cons t ts ih =>
    rw [waysFrom, List.mem_append, ih]
    constructor
    · rintro (mem | ⟨i, t', here, mem⟩)
      · exact ⟨0, t, rfl, mem⟩
      · refine ⟨i + 1, t', here, ?_⟩
        rwa [Nat.add_comm i 1, ← Nat.add_assoc]
    · rintro ⟨i, t', here, mem⟩
      cases i with
      | zero =>
        cases here
        exact .inl mem
      | succ i =>
        refine .inr ⟨i, t', here, ?_⟩
        rwa [Nat.add_assoc, Nat.add_comm 1 i]

/-- The ways from a whole list start at its places. -/
theorem mem_waysFrom_zero_iff :
    w ∈ waysFrom 0 sinks ↔ ∃ i t, sinks[i]? = some t ∧ w ∈ waysAt i t := by
  simp only [mem_waysFrom_iff, Nat.zero_add]

/-- Every way that leads from a list to a leaf is among those from the list. -/
theorem mem_waysFrom_of_leads (leads : Leads sinks w) : w ∈ waysFrom 0 sinks := by
  induction leads with
  | leaf here => exact mem_waysFrom_zero_iff.mpr ⟨_, _, here, mem_waysAt_leaf_iff.mpr rfl⟩
  | fan here _ ih =>
    exact mem_waysFrom_zero_iff.mpr ⟨_, _, here, mem_waysAt_fan_iff.mpr ⟨_, ih, rfl⟩⟩

/-- A way that is found leads to its leaf; the fans on it tell how far down to look. -/
theorem leads_of_mem_waysFrom (mem : w ∈ waysFrom 0 sinks) : Leads sinks w := by
  obtain ⟨places, fans, last⟩ := w
  induction fans generalizing sinks places with
  | nil =>
    obtain ⟨i, t, here, mem⟩ := mem_waysFrom_zero_iff.mp mem
    cases t with
    | leaf _ =>
      cases mem_waysAt_leaf_iff.mp mem
      exact .leaf here
    | fan _ targets =>
      obtain ⟨_, -, h⟩ := mem_waysAt_fan_iff.mp mem
      cases h
  | cons first fans ih =>
    obtain ⟨i, t, here, mem⟩ := mem_waysFrom_zero_iff.mp mem
    cases t with
    | leaf _ => cases mem_waysAt_leaf_iff.mp mem
    | fan _ targets =>
      obtain ⟨v, below, h⟩ := mem_waysAt_fan_iff.mp mem
      cases h
      exact .fan here (ih v.places below)

/-- A way from a sink takes the place of the sink first. -/
theorem exists_places_of_mem_waysAt {t : SinkRef} (mem : w ∈ t.waysAt place) :
    ∃ rest, w.places = place :: rest := by
  cases t with
  | leaf id =>
    rw [mem_waysAt_leaf_iff.mp mem]
    exact ⟨[], rfl⟩
  | fan id targets =>
    obtain ⟨v, -, rfl⟩ := mem_waysAt_fan_iff.mp mem
    exact ⟨v.places, rfl⟩

mutual

/-- The ways that start with a sink are in the order of the places. -/
theorem waysAt_ordered (place : Nat) :
    (t : SinkRef) → (t.waysAt place).Pairwise fun v w => v.places < w.places
  | leaf id => by
    rw [waysAt]
    exact List.pairwise_singleton _ _
  | fan id targets => by
    rw [waysAt, List.pairwise_map]
    refine (waysFrom_ordered 0 targets).imp fun {v w} before => ?_
    exact List.cons_lt_cons_iff.mpr (.inr ⟨rfl, before⟩)

/-- The ways from a list are in the order of the places. -/
theorem waysFrom_ordered (place : Nat) :
    (sinks : List SinkRef) → (waysFrom place sinks).Pairwise fun v w => v.places < w.places
  | [] => by
    rw [waysFrom]
    exact .nil
  | t :: ts => by
    rw [waysFrom, List.pairwise_append]
    refine ⟨waysAt_ordered place t, waysFrom_ordered (place + 1) ts, fun v first w later => ?_⟩
    obtain ⟨_, hv⟩ := exists_places_of_mem_waysAt first
    obtain ⟨i, _, -, mem⟩ := mem_waysFrom_iff.mp later
    obtain ⟨_, hw⟩ := exists_places_of_mem_waysAt mem
    rw [hv, hw]
    exact List.cons_lt_cons_iff.mpr (.inl (by omega))

end

end Ways

/-! ## Open ways -/

section Open

variable {threshold : Nat → Level} {l : Level}

/-- A way to a leaf lets pass what the leaf lets pass. -/
theorem passes_leaf (place id : Nat) :
    Way.passes threshold l ⟨[place], [], id⟩ = (threshold id).allows l := by
  simp [Way.passes]

/-- A way through a fan lets pass what both the fan and the way behind it let pass. -/
theorem passes_through (place id : Nat) (w : Way) :
    (w.through place id).passes threshold l =
      ((threshold id).allows l && w.passes threshold l) := rfl

/-- The open ways among all ways. -/
theorem openWays_filter (sinks : List SinkRef) :
    OpenWays threshold l sinks ((waysFrom 0 sinks).filter (Way.passes threshold l)) := by
  refine ⟨(waysFrom_ordered 0 sinks).filter _, fun w => ?_⟩
  rw [List.mem_filter]
  exact and_congr_left fun _ => ⟨leads_of_mem_waysFrom, mem_waysFrom_of_leads⟩

/-- The leaves at the ends of the open ways. -/
def openEnds (threshold : Nat → Level) (l : Level) (ways : List Way) : List Nat :=
  (ways.filter (Way.passes threshold l)).map Way.leaf

/-- The open ends of ways put together are those of the first ones, then those of the rest. -/
theorem openEnds_append (ways ways' : List Way) :
    openEnds threshold l (ways ++ ways') = openEnds threshold l ways ++ openEnds threshold l ways' := by
  rw [openEnds, List.filter_append, List.map_append]
  rfl

/-- A fan that lets the level pass leads where its targets lead. -/
theorem openEnds_waysAt_fan {id : Nat} (allows : (threshold id).allows l = true) (place : Nat)
    (targets : List SinkRef) :
    openEnds threshold l ((fan id targets).waysAt place) =
      openEnds threshold l (waysFrom 0 targets) := by
  have same : Way.passes threshold l ∘ Way.through place id = Way.passes threshold l := by
    funext w
    rw [Function.comp_apply, passes_through, allows, Bool.true_and]
  rw [openEnds, waysAt, List.filter_map, same, List.map_map]
  rfl

/-- A sink that does not let the level pass leads nowhere. -/
theorem openEnds_waysAt_of_stops {t : SinkRef} (stops : (threshold t.id).allows l = false)
    (place : Nat) : openEnds threshold l (t.waysAt place) = [] := by
  have none : (t.waysAt place).filter (Way.passes threshold l) = [] := by
    rw [List.filter_eq_nil_iff]
    intro w mem
    cases t with
    | leaf id =>
      rw [mem_waysAt_leaf_iff.mp mem, passes_leaf, show (threshold id).allows l = false from stops]
      exact Bool.false_ne_true
    | fan id targets =>
      obtain ⟨v, -, rfl⟩ := mem_waysAt_fan_iff.mp mem
      rw [passes_through, show (threshold id).allows l = false from stops]
      exact Bool.false_ne_true
  rw [openEnds, none]
  rfl

/-- Nothing is open to a record of level `off`. -/
theorem openWays_off {sinks : List SinkRef} {ways : List Way}
    (found : OpenWays threshold .off sinks ways) : ways = [] := by
  refine List.eq_nil_iff_forall_not_mem.mpr fun w mem => ?_
  have passes := ((found.mem_iff w).mp mem).2
  have leaf := List.all_eq_true.mp passes w.leaf (List.mem_append_right _ (List.mem_singleton_self _))
  rw [Level.allows_off] at leaf
  cases leaf

end Open

/-! ## Delivery -/

section Delivery

variable {σ ε : Type} {write : Nat → σ → Option ε × σ}

/-- What is told of writes: the first failure, and what they leave behind. -/
def told (r : List (Option ε) × σ) : Option ε × σ :=
  (r.1.findSome? fun fault => fault, r.2)

/-- Writing to leaves put together is writing to the first ones, then to the rest. -/
theorem writeEach_append (ids ids' : List Nat) (s : σ) :
    writeEach write (ids ++ ids') s =
      ((writeEach write ids s).1 ++ (writeEach write ids' (writeEach write ids s).2).1,
        (writeEach write ids' (writeEach write ids s).2).2) := by
  induction ids generalizing s with
  | nil => rfl
  | cons id ids ih =>
    rw [List.cons_append, writeEach]
    dsimp only
    rw [ih]
    rfl

/-- A failure of the first writes is told before one of the later writes. -/
theorem told_writeEach_append (ids ids' : List Nat) (s : σ) :
    told (writeEach write (ids ++ ids') s) =
      let (fault, s) := told (writeEach write ids s)
      let (later, s) := told (writeEach write ids' s)
      (fault.or later, s) := by
  rw [writeEach_append, told, List.findSome?_append]
  rfl

/-- What is told of a single write is its own failure. -/
theorem told_writeEach_singleton (id : Nat) (s : σ) : told (writeEach write [id] s) = write id s := by
  rw [writeEach]
  rcases write id s with ⟨_ | _, _⟩ <;> rfl

mutual

/-- A sink whose level lets the record pass writes to its open ends, one after the other. The
recursion is that of the sink. -/
theorem log_eq_writeEach (threshold : Nat → Level) (l : Level) (write : Nat → σ → Option ε × σ) :
    (t : SinkRef) → (threshold t.id).allows l = true → ∀ place s,
      t.log threshold l write s = told (writeEach write (openEnds threshold l (t.waysAt place)) s)
  | leaf id, allows, place, s => by
    have passes : (threshold id).allows l = true := allows
    have ends : openEnds threshold l ((leaf id).waysAt place) = [id] := by
      rw [openEnds, waysAt, List.filter_cons, passes_leaf, passes]
      rfl
    rw [ends, told_writeEach_singleton, log]
  | fan id targets, allows, place, s => by
    have passes : (threshold id).allows l = true := allows
    rw [openEnds_waysAt_fan passes, log]
    exact logAll_eq_writeEach threshold l write targets 0 s

/-- A line that is handed to sinks is written to the leaves at the ends of the open ways. -/
theorem logAll_eq_writeEach (threshold : Nat → Level) (l : Level) (write : Nat → σ → Option ε × σ) :
    (sinks : List SinkRef) → ∀ place s, logAll threshold l write sinks s =
      told (writeEach write (openEnds threshold l (waysFrom place sinks)) s)
  | [], _, _ => by
    rw [logAll, waysFrom, openEnds, List.filter_nil, List.map_nil, writeEach]
    rfl
  | t :: ts, place, s => by
    rw [logAll, waysFrom, openEnds_append]
    cases allows : (threshold t.id).allows l with
    | true =>
      rw [if_pos rfl, told_writeEach_append, log_eq_writeEach threshold l write t allows place]
      dsimp only
      rw [logAll_eq_writeEach threshold l write ts (place + 1)]
    | false =>
      rw [if_neg Bool.false_ne_true, openEnds_waysAt_of_stops allows, List.nil_append]
      exact logAll_eq_writeEach threshold l write ts (place + 1) s

end

end Delivery

end SinkRef

namespace Engine

open SinkRef (OpenWays Way Leads told writeEach)

variable (e : Engine) (r : Record)

/-! ## Levels stay -/

/-- What a leaf has become changes no level. -/
theorem threshold_putLeaf (sink : Nat) (leaf : Leaf) (w : World) :
    (e.putLeaf sink leaf w).threshold = e.threshold := by
  funext id
  unfold threshold putLeaf
  rw [List.getElem?_modify]
  cases e.sinks[id]? with
  | none => rfl
  | some s => by_cases h : sink = id <;> simp [h]

/-- Writing to a leaf changes no level. -/
theorem threshold_writeLeaf (line : Line) (sink : Nat) :
    (writeLeaf r line sink e).2.threshold = e.threshold := by
  unfold writeLeaf
  split
  · rfl
  · exact threshold_putLeaf e sink _ _

/-- No write changes a level. -/
theorem threshold_writeEach (line : Line) (leaves : List Nat) :
    (writeEach (writeLeaf r line) leaves e).2.threshold = e.threshold := by
  induction leaves generalizing e with
  | nil => rfl
  | cons id leaves ih => exact (ih _).trans (threshold_writeLeaf e r line id)

/-! ## Records -/

/-- A record that is written goes down every way from the sinks of its logger on which all sinks let
its level pass, and down no other. Its one line is written to the leaves at the ends of these ways,
once for each way and in the order of the places, whatever a write does or tells; the failure that is
told is the first one. A record of level `off` goes nowhere. -/
theorem record_goes_down_open_ways {logger : Nat} {l : LoggerState}
    (made : e.loggers[logger]? = some l) :
    ∃ ways : List Way, OpenWays e.threshold r.level l.sinks ways ∧
      (∀ (σ ε : Type) (write : Nat → σ → Option ε × σ) (s : σ),
        SinkRef.logAll e.threshold r.level write l.sinks s =
          told (writeEach write (ways.map Way.leaf) s)) ∧
      (let line := e.line l.pattern r
        let written := writeEach (writeLeaf r line) (ways.map Way.leaf) e
        e.logToAll l.sinks r line = told written ∧ e.run (.write logger r) = written.2) ∧
      (r.level = .off → ways = [] ∧ e.run (.write logger r) = e) := by
  let ways := (SinkRef.waysFrom 0 l.sinks).filter (Way.passes e.threshold r.level)
  have found : OpenWays e.threshold r.level l.sinks ways := SinkRef.openWays_filter l.sinks
  have goes : ∀ (σ ε : Type) (write : Nat → σ → Option ε × σ) (s : σ),
      SinkRef.logAll e.threshold r.level write l.sinks s =
        told (writeEach write (ways.map Way.leaf) s) :=
    fun _ _ write => SinkRef.logAll_eq_writeEach e.threshold r.level write l.sinks 0
  have runs : e.run (.write logger r) =
      (writeEach (writeLeaf r (e.line l.pattern r)) (ways.map Way.leaf) e).2 := by
    rw [run, made]
    dsimp only
    rw [logToAll, goes]
    rfl
  refine ⟨ways, found, goes, ⟨goes _ _ _ e, runs⟩, fun off => ?_⟩
  have none : ways = [] := by
    rw [off] at found
    exact SinkRef.openWays_off found
  refine ⟨none, ?_⟩
  rw [runs, none]
  rfl

/-- A fan hands a warning to the system log, which fails, and twice to the console; the logger also
writes to the console itself, and to a sink that takes no warnings. -/
theorem warning_goes_down_open_ways :
    let sinks : List SinkRef := [.fan 2 [.leaf 0, .leaf 1, .leaf 1], .leaf 1, .leaf 3]
    let l : LoggerState := ⟨"app", .info, ⟨"%v", [.part .payload]⟩, sinks, .direct⟩
    let e : Engine :=
      ⟨⟨⟨[], []⟩, [], [], .never, ⟨0, 0, 0⟩, 7⟩,
        [⟨.trace, some (.syslog ⟨"", 0, 0⟩)⟩, ⟨.info, some (.console .out false)⟩, ⟨.warn, none⟩,
          ⟨.err, some (.console .out false)⟩], [l], [], [], none, 0⟩
    let r : Record := ⟨"app", .warn, ⟨0, 0, 0⟩, 1, "low"⟩
    e.loggers[0]? = some l ∧
      (∃ ways : List Way, OpenWays e.threshold r.level sinks ways ∧
        ⟨[0, 2], [2], 1⟩ ∈ ways ∧ ⟨[2], [], 3⟩ ∉ ways ∧
        e.logToAll sinks r (e.line l.pattern r) =
          told (writeEach (writeLeaf r (e.line l.pattern r)) (ways.map Way.leaf) e)) ∧
      (e.logToAll sinks r (e.line l.pattern r)).1 = some .notFound ∧
      (e.run (.write 0 r)).world.out =
        ['l', 'o', 'w', '\n', 'l', 'o', 'w', '\n', 'l', 'o', 'w', '\n'] := by
  intro sinks l e r
  have made : e.loggers[0]? = some l := rfl
  obtain ⟨ways, found, -, ⟨goes, -⟩, -⟩ := record_goes_down_open_ways e r made
  refine ⟨made, ⟨ways, found, ?_, ?_, goes⟩, by decide, by decide⟩
  · exact (found.mem_iff _).mpr ⟨.fan (w := ⟨[2], [], 1⟩) rfl (.leaf rfl), by decide⟩
  · intro mem
    exact absurd ((found.mem_iff _).mp mem).2 (by decide)

end Engine

end LogTopology
