import LogTopology.Proofs.Engine.Alike
import LogTopology.Proofs.Sink.Ways
import Mathlib.Data.List.Forall2
/-!
# How far a flush comes

The sinks of a list are flushed one after the other, whatever becomes of each of them. Within a sink
the leaves at the ends of its ways are flushed in the order of the places, up to the first one that
fails (`UpToFault`); what stands behind that one in the same sink is not flushed.

So a leaf is flushed if some way to it is not barred: no earlier way from the same sink leads to a
leaf that fails (`mem_flushCalls_iff`). To see which leaves are flushed, a note is made of each of
them and of what became of it (`noting`), which changes nothing else (`flushEach_noting`).

How far a flush comes is an induction on the sinks, along the recursion of the flush itself
(`flush_noting`, `flushUntil_noting`), and comes to rows of flushes, one for each sink of the list
(`exists_rows`). Ways are the other side: a row is an initial part of the ends of its sink, and its
members are counted by the ways that lead to them.

A leaf to which several ways lead is flushed once for each of them. Whether a leaf fails may change
during the flush, unless a law supposes that it does not.
-/

namespace LogTopology

namespace SinkRef

/-- A flush of a leaf, and the failure if it failed. -/
abbrev FlushCall (ε : Type) := Nat × Option ε

/-- Leaves that are flushed in turn up to the first that fails, and the failure that is told. -/
inductive UpToFault {ε : Type} : List Nat → List (FlushCall ε) → Option ε → Prop where
  | done : UpToFault [] [] none
  | fault (id : Nat) (ids : List Nat) (e : ε) : UpToFault (id :: ids) [(id, some e)] (some e)
  | fine {ids : List Nat} {calls : List (FlushCall ε)} {told : Option ε} (id : Nat)
      (rest : UpToFault ids calls told) : UpToFault (id :: ids) ((id, none) :: calls) told

/-- The leaves at the ends of the ways that start with a sink, in the order of the places. -/
def ends (t : SinkRef) : List Nat :=
  (t.waysAt 0).map Way.leaf

/-- A way starts with the same sink as another one and takes earlier places. -/
def Way.Precedes (v w : Way) : Prop :=
  v.places.head? = w.places.head? ∧ v.places < w.places

instance (v w : Way) : Decidable (v.Precedes w) :=
  inferInstanceAs (Decidable (_ ∧ _))

section Calls

variable {σ ε : Type}

/-- Flushes a leaf and makes a note of it. -/
def noting (flush : Nat → σ → Option ε × σ) (id : Nat) (s : σ × List (FlushCall ε)) :
    Option ε × σ × List (FlushCall ε) :=
  ((flush id s.1).1, (flush id s.1).2, s.2 ++ [(id, (flush id s.1).1)])

/-- The flushes of leaves when sinks are flushed, in order. -/
def flushCalls (flush : Nat → σ → Option ε × σ) (sinks : List SinkRef) (s : σ) :
    List (FlushCall ε) :=
  (flushEach (noting flush) sinks (s, [])).2

end Calls

/-! ## Ends -/

/-- A leaf is its own end. -/
theorem ends_leaf (id : Nat) : (leaf id).ends = [id] := by
  rw [ends, waysAt, List.map_singleton]

/-- The ends of a sink do not depend on the place that it has in a list. -/
theorem map_leaf_waysAt (place : Nat) (t : SinkRef) : (t.waysAt place).map Way.leaf = t.ends := by
  cases t with
  | leaf id => rw [ends_leaf, waysAt, List.map_singleton]
  | fan id targets =>
    rw [ends, waysAt, waysAt, List.map_map, List.map_map]
    rfl

/-- The ends of a list of sinks are those of the sinks, one after the other. -/
theorem map_leaf_waysFrom (place : Nat) (sinks : List SinkRef) :
    (waysFrom place sinks).map Way.leaf = sinks.flatMap ends := by
  induction sinks generalizing place with
  | nil => rw [waysFrom, List.flatMap_nil, List.map_nil]
  | cons t ts ih => rw [waysFrom, List.map_append, map_leaf_waysAt, ih, List.flatMap_cons]

/-- The ends of a fan are those of its targets, in their order. -/
theorem ends_fan (id : Nat) (targets : List SinkRef) : (fan id targets).ends = targets.flatMap ends := by
  rw [ends, waysAt, List.map_map, ← map_leaf_waysFrom 0]
  rfl

/-! ## Up to the first that fails -/

section UpToFault

variable {ε : Type} {ids : List Nat} {calls : List (FlushCall ε)} {told : Option ε}

/-- What stands behind a leaf that fails is not flushed. -/
theorem UpToFault.append_of_fault {e : ε} (h : UpToFault ids calls (some e)) (later : List Nat) :
    UpToFault (ids ++ later) calls (some e) := by
  generalize failed : some e = told at h
  induction h with
  | done => cases failed
  | fault id ids e => exact .fault id (ids ++ later) e
  | fine id _ ih => exact .fine id (ih failed)

/-- Flushes behind others that all went well. -/
theorem UpToFault.append {later : List Nat} {calls' : List (FlushCall ε)}
    (h : UpToFault ids calls none) (rest : UpToFault later calls' told) :
    UpToFault (ids ++ later) (calls ++ calls') told := by
  generalize passed : (none : Option ε) = outcome at h
  induction h with
  | done => exact rest
  | fault => cases passed
  | fine id _ ih => exact .fine id (ih passed)

/-- A leaf is flushed if it comes before all leaves that fail, or is the first of these. -/
theorem UpToFault.mem_iff (h : UpToFault ids calls told) {fails : Nat → Prop}
    (tell : ∀ c ∈ calls, c.2.isSome ↔ fails c.1) {id : Nat} :
    id ∈ calls.map Prod.fst ↔
      ∃ front back, ids = front ++ id :: back ∧ ∀ other ∈ front, ¬ fails other := by
  induction h with
  | done => simp
  | fault first ids e =>
    -- Nothing is flushed behind the first one that fails.
    have failed : fails first := (tell _ List.mem_cons_self).mp rfl
    rw [List.map_singleton, List.mem_singleton]
    constructor
    · rintro rfl
      exact ⟨[], ids, rfl, fun _ mem => absurd mem List.not_mem_nil⟩
    · rintro ⟨front, back, split, spared⟩
      cases front with
      | nil => exact (List.cons.inj split).1.symm
      | cons other front =>
        rw [(List.cons.inj split).1] at failed
        exact absurd failed (spared other List.mem_cons_self)
  | @fine ids calls told first _ ih =>
    have passed : ¬ fails first := fun failed =>
      Bool.false_ne_true ((tell _ List.mem_cons_self).mpr failed)
    have ih := ih fun c mem => tell c (List.mem_cons_of_mem _ mem)
    rw [List.map_cons, List.mem_cons, ih]
    constructor
    · rintro (rfl | ⟨front, back, split, spared⟩)
      · exact ⟨[], ids, rfl, fun _ mem => absurd mem List.not_mem_nil⟩
      · refine ⟨first :: front, back, by rw [split, List.cons_append], ?_⟩
        exact List.forall_mem_cons.mpr ⟨passed, spared⟩
    · rintro ⟨front, back, split, spared⟩
      cases front with
      | nil => exact .inl (List.cons.inj split).1.symm
      | cons other front =>
        refine .inr ⟨front, back, (List.cons.inj split).2, ?_⟩
        exact (List.forall_mem_cons.mp spared).2

end UpToFault

/-! ## Notes -/

section Notes

variable {σ ε : Type} (flush : Nat → σ → Option ε × σ)

mutual

/-- Flushing a sink goes up to the first leaf that fails, and notes change nothing. -/
theorem flush_noting : (t : SinkRef) → ∀ s before, ∃ calls,
    UpToFault t.ends calls (t.flush flush s).1 ∧
      t.flush (noting flush) (s, before) =
        ((t.flush flush s).1, (t.flush flush s).2, before ++ calls)
  | leaf id, s, before => by
    rw [ends_leaf, SinkRef.flush, SinkRef.flush]
    refine ⟨[(id, (flush id s).1)], ?_, rfl⟩
    cases (flush id s).1 with
    | none => exact .fine id .done
    | some e => exact .fault id [] e
  | fan id targets, s, before => by
    rw [ends_fan, SinkRef.flush, SinkRef.flush]
    exact flushUntil_noting targets s before

/-- Flushing target by target comes to the first end that fails, and notes change nothing of that.
The recursion is that of the flush. -/
theorem flushUntil_noting : (ts : List SinkRef) → ∀ s before, ∃ calls,
    UpToFault (ts.flatMap ends) calls (flushUntil flush ts s).1 ∧
      flushUntil (noting flush) ts (s, before) =
        ((flushUntil flush ts s).1, (flushUntil flush ts s).2, before ++ calls)
  | [], s, before => by
    rw [flushUntil, flushUntil, List.flatMap_nil]
    exact ⟨[], .done, by rw [List.append_nil]⟩
  | t :: ts, s, before => by
    obtain ⟨calls, first, noted⟩ := flush_noting t s before
    rw [flushUntil, flushUntil, noted, List.flatMap_cons]
    -- whether the first target has failed decides whether the others are flushed at all
    generalize t.flush flush s = r at first
    obtain ⟨_ | e, s'⟩ := r
    · obtain ⟨later, rest, noted⟩ := flushUntil_noting ts s' (before ++ calls)
      refine ⟨calls ++ later, first.append rest, ?_⟩
      rw [← List.append_assoc]
      exact noted
    · exact ⟨calls, first.append_of_fault _, rfl⟩

end

/-- The sinks of a list are flushed one by one, each of them up to its first end that fails. -/
theorem exists_flushEach_noting (sinks : List SinkRef) (s : σ) (before : List (FlushCall ε)) :
    ∃ rows, List.Forall₂ (fun t row => ∃ told, UpToFault t.ends row told) sinks rows ∧
      flushEach (noting flush) sinks (s, before) =
        (flushEach flush sinks s, before ++ rows.flatten) := by
  induction sinks generalizing s before with
  | nil => exact ⟨[], .nil, by rw [flushEach, flushEach, List.flatten_nil, List.append_nil]⟩
  | cons t ts ih =>
    obtain ⟨calls, first, noted⟩ := flush_noting flush t s before
    obtain ⟨rows, later, rest⟩ := ih (t.flush flush s).2 (before ++ calls)
    refine ⟨calls :: rows, .cons ⟨_, first⟩ later, ?_⟩
    rw [flushEach, flushEach, noted, List.flatten_cons, ← List.append_assoc]
    exact rest

/-- Notes change nothing. -/
theorem flushEach_noting (sinks : List SinkRef) (s : σ) :
    flushEach (noting flush) sinks (s, []) = (flushEach flush sinks s, flushCalls flush sinks s) := by
  obtain ⟨rows, -, noted⟩ := exists_flushEach_noting flush sinks s []
  rw [flushCalls, noted]

/-- Every sink of a list is flushed up to its first leaf that fails. -/
theorem exists_rows (sinks : List SinkRef) (s : σ) :
    ∃ rows, flushCalls flush sinks s = rows.flatten ∧
      List.Forall₂ (fun t row => ∃ told, UpToFault t.ends row told) sinks rows := by
  obtain ⟨rows, each, noted⟩ := exists_flushEach_noting flush sinks s []
  exact ⟨rows, congrArg Prod.snd noted, each⟩

/-- Where the same leaves fail all the time, the notes tell which do. -/
theorem notes_tell {fails : Nat → Prop} (same : ∀ id s, (flush id s).1.isSome ↔ fails id)
    (sinks : List SinkRef) (s : σ) :
    ∀ c ∈ flushCalls flush sinks s, c.2.isSome ↔ fails c.1 := by
  let telling (s t : σ × List (FlushCall ε)) : Prop := s = t ∧ ∀ c ∈ s.2, c.2.isSome ↔ fails c.1
  have leaves : Matches (noting flush) (noting flush) telling := by
    rintro id s _ ⟨rfl, tell⟩
    refine ⟨rfl, rfl, List.forall_mem_append.mpr ⟨tell, ?_⟩⟩
    exact List.forall_mem_singleton.mpr (same id s.1)
  have nothing : telling (s, []) (s, []) := ⟨rfl, fun _ mem => absurd mem List.not_mem_nil⟩
  exact (flushEach_related leaves sinks nothing).2

end Notes

/-! ## Ways that are not barred -/

section Barred

variable {ε : Type} {sinks : List SinkRef} {t : SinkRef} {place : Nat} {v w : Way}
  {fails : Nat → Prop} {row : List (FlushCall ε)} {told : Option ε}

/-- A way from a sink of a list is a way from the list. -/
theorem leads_of_mem_waysAt (here : sinks[place]? = some t) (mem : w ∈ t.waysAt place) :
    Leads sinks w :=
  leads_of_mem_waysFrom (mem_waysFrom_zero_iff.mpr ⟨place, t, here, mem⟩)

/-- A way starts at the place of its sink. -/
theorem head?_of_mem_waysAt (mem : w ∈ t.waysAt place) : w.places.head? = some place := by
  obtain ⟨rest, places⟩ := exists_places_of_mem_waysAt mem
  rw [places, List.head?_cons]

/-- A way that starts with the same sink is one of the ways of that sink. -/
theorem mem_waysAt_of_head? (here : sinks[place]? = some t) (leads : Leads sinks v)
    (head : v.places.head? = some place) : v ∈ t.waysAt place := by
  obtain ⟨i, t', there, mem⟩ := mem_waysFrom_zero_iff.mp (mem_waysFrom_of_leads leads)
  rw [head?_of_mem_waysAt mem] at head
  cases head
  rw [here] at there
  cases there
  exact mem

/-- In the list of a sink's ways, those before one of them are the ways that precede it. -/
theorem mem_front_iff {front back : List Way} (here : sinks[place]? = some t)
    (split : t.waysAt place = front ++ w :: back) :
    v ∈ front ↔ Leads sinks v ∧ v.Precedes w := by
  have ordered := waysAt_ordered place t
  rw [split, List.pairwise_append] at ordered
  obtain ⟨-, behind, before⟩ := ordered
  have wHead : w.places.head? = some place :=
    head?_of_mem_waysAt (t := t) (split ▸ List.mem_append_right _ List.mem_cons_self)
  constructor
  · intro mem
    have vMem : v ∈ t.waysAt place := split ▸ List.mem_append_left _ mem
    refine ⟨leads_of_mem_waysAt here vMem, ?_, before v mem w List.mem_cons_self⟩
    rw [head?_of_mem_waysAt vMem, wHead]
  · rintro ⟨leads, head, earlier⟩
    have vMem := mem_waysAt_of_head? here leads (head.trans wHead)
    rw [split, List.mem_append, List.mem_cons] at vMem
    -- the ways stand in the order of their places, so none behind `w` takes earlier ones
    rcases vMem with mem | rfl | mem
    · exact mem
    · exact absurd earlier (List.lt_irrefl _)
    · exact absurd ((List.pairwise_cons.mp behind).1 v mem) (List.lt_asymm earlier)

/-- A leaf is flushed with a sink if some way from the sink leads to it and is not barred. -/
theorem UpToFault.mem_iff_leads (h : UpToFault t.ends row told) (here : sinks[place]? = some t)
    (tell : ∀ c ∈ row, c.2.isSome ↔ fails c.1) {id : Nat} :
    id ∈ row.map Prod.fst ↔
      ∃ w ∈ t.waysAt place, w.leaf = id ∧ ∀ v, Leads sinks v → v.Precedes w → ¬ fails v.leaf := by
  rw [h.mem_iff tell, ← map_leaf_waysAt place]
  constructor
  · rintro ⟨front, back, split, spared⟩
    obtain ⟨vs, rest, ways, rfl, tail⟩ := List.map_eq_append_iff.mp split
    obtain ⟨w, ws, rfl, leaf, -⟩ := List.map_eq_cons_iff.mp tail
    refine ⟨w, ways ▸ List.mem_append_right _ List.mem_cons_self, leaf, fun v leads precedes => ?_⟩
    have mem := (mem_front_iff here ways).mpr ⟨leads, precedes⟩
    exact spared _ (List.mem_map_of_mem mem)
  · rintro ⟨w, mem, rfl, spared⟩
    obtain ⟨vs, ws, ways⟩ := List.append_of_mem mem
    refine ⟨vs.map Way.leaf, ws.map Way.leaf, by rw [ways, List.map_append, List.map_cons], ?_⟩
    intro other among
    obtain ⟨v, front, rfl⟩ := List.mem_map.mp among
    obtain ⟨leads, precedes⟩ := (mem_front_iff here ways).mp front
    exact spared v leads precedes

/-- A leaf is flushed with a list of sinks if some way leads to it that is not barred. -/
theorem mem_flushCalls_iff {σ : Type} {flush : Nat → σ → Option ε × σ} {s : σ}
    (tell : ∀ c ∈ flushCalls flush sinks s, c.2.isSome ↔ fails c.1) {id : Nat} :
    id ∈ (flushCalls flush sinks s).map Prod.fst ↔
      ∃ w, Leads sinks w ∧ w.leaf = id ∧ ∀ v, Leads sinks v → v.Precedes w → ¬ fails v.leaf := by
  obtain ⟨rows, flat, each⟩ := exists_rows flush sinks s
  rw [flat] at tell ⊢
  obtain ⟨sizes, each⟩ := List.forall₂_iff_get.mp each
  -- Each sink stops at its own first fault, so its row can be looked at by itself.
  have atPlace {i : Nat} {t : SinkRef} {row : List (FlushCall ε)} (here : sinks[i]? = some t)
      (there : rows[i]? = some row) : id ∈ row.map Prod.fst ↔ ∃ w ∈ t.waysAt i, w.leaf = id ∧
        ∀ v, Leads sinks v → v.Precedes w → ¬ fails v.leaf := by
    obtain ⟨h₁, rfl⟩ := List.getElem?_eq_some_iff.mp here
    obtain ⟨h₂, rfl⟩ := List.getElem?_eq_some_iff.mp there
    obtain ⟨told, upTo⟩ := each i h₁ h₂
    exact upTo.mem_iff_leads here fun c mem =>
      tell c (List.mem_flatten.mpr ⟨_, List.getElem_mem h₂, mem⟩)
  constructor
  · intro mem
    obtain ⟨c, flat, rfl⟩ := List.mem_map.mp mem
    obtain ⟨row, among, called⟩ := List.mem_flatten.mp flat
    obtain ⟨i, bound, rfl⟩ := List.getElem_of_mem among
    have here := List.getElem?_eq_getElem (sizes.symm ▸ bound : i < sinks.length)
    have there := List.getElem?_eq_getElem bound
    obtain ⟨w, starts, leaf, spared⟩ := (atPlace here there).mp (List.mem_map_of_mem called)
    exact ⟨w, leads_of_mem_waysAt here starts, leaf, spared⟩
  · rintro ⟨w, leads, leaf, spared⟩
    obtain ⟨i, t, here, starts⟩ := mem_waysFrom_zero_iff.mp (mem_waysFrom_of_leads leads)
    have bound : i < rows.length := sizes ▸ (List.getElem?_eq_some_iff.mp here).1
    have there := List.getElem?_eq_getElem bound
    have mem := (atPlace here there).mpr ⟨w, starts, leaf, spared⟩
    obtain ⟨c, called, rfl⟩ := List.mem_map.mp mem
    exact List.mem_map_of_mem (List.mem_flatten.mpr ⟨_, List.getElem_mem bound, called⟩)

/-- All leaves are flushed if none that fails precedes another one. -/
theorem mem_flushCalls_of_spared {σ : Type} {flush : Nat → σ → Option ε × σ} {s : σ}
    (tell : ∀ c ∈ flushCalls flush sinks s, c.2.isSome ↔ fails c.1)
    (spared : ∀ v w, Leads sinks v → Leads sinks w → v.Precedes w → ¬ fails v.leaf)
    (leads : Leads sinks w) : w.leaf ∈ (flushCalls flush sinks s).map Prod.fst :=
  (mem_flushCalls_iff tell).mpr ⟨w, leads, rfl, fun v vLeads => spared v w vLeads leads⟩

end Barred

end SinkRef

end LogTopology
