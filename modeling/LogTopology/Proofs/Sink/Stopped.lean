import LogTopology.Proofs.Sink.Walk
/-!
# Walks that stop

A walk that stops with an error has made some sinks before, and the plan of the sinks makes them on
the backend before it reports the error. `walk_sound` says that these sinks are in order whatever
stops the walk: each of them is made once, from the declaration of its name, and after its targets.

`Stop` tells the error from the point where the walk stands: a sink on the path that its last one
leads back to, or a declaration that has not been made, with a kind that does not decode or a target
that is not declared. Visits have no other way to stop. Nothing is put around the error of a visit by
the visits that it is part of, so the error is the same at every point of the path.

The induction is that of the walk that arrives, with the error kept instead of excluded: a visit
that stops stops at one of its targets, those before it have been visited (`visitEach_stops`), and
what they have made is there when the error is told.
-/

namespace LogTopology.Sink

variable {ds : List Declaration} {p q : Progress} {e : SetupError}

/-- Visits one after the other that stop, stop at one of the names when those before it have been
visited. -/
theorem visitEach_stops {visit : String → Progress → Visited} {names : List String}
    (stops : visitEach visit names p = (q, some e)) :
    ∃ front n back mid, names = front ++ n :: back ∧ visitEach visit front p = (mid, none) ∧
      visit n mid = (q, some e) := by
  induction names generalizing p with
  | nil => cases stops
  | cons n names ih =>
    rw [visitEach] at stops
    rcases here : visit n p with ⟨mid, _ | fault⟩
    · rw [here] at stops
      obtain ⟨front, m, back, last, rfl, visited, stopped⟩ := ih stops
      refine ⟨n :: front, m, back, last, rfl, ?_, stopped⟩
      rw [visitEach, here]
      exact visited
    · rw [here] at stops
      cases stops
      exact ⟨[], n, names, p, rfl, rfl, here⟩

/-- Visits that arrive leave the targets first if they find them so, and have made what they were
to visit. -/
theorem targetsFirst_of_outcome {names : List String} {visited : Visited}
    (outcome : Outcome ds p names visited) (arrives : visited = (q, none))
    (first : TargetsFirst (targetsOf ds) p.made) :
    q.Sound ds ∧ q.path = p.path ∧ TargetsFirst (targetsOf ds) q.made ∧
      ∀ n ∈ names, n ∈ q.made := by
  subst arrives
  obtain ⟨sound, path, order⟩ := outcome
  exact ⟨sound, path, order.targetsFirst first, order.mem_of_root⟩

/-- The visit of a target on behalf of the sink that is being worked on. -/
theorem visitTarget_outcome {room : Nat} {d : Declaration} {kind : Kind} {t : String}
    (found : Declaration.find? ds d.name = some d)
    (decoded : Kind.decode d.family d.table = .ok kind) (target : t ∈ kind.targets)
    (sound : q.Sound ds) (path : q.path = (p.enter d.name).path)
    (enough : room + 1 + p.path.length = ds.length + 1) :
    Outcome ds q [t] (visitTarget ds room d.name t q) := by
  have grown := length_path_enter path
  exact outcome_of_target found decoded target path fun declared leads =>
    visit_outcome room sound (by omega) declared leads

/-- Why a walk stops where it stands. -/
inductive Stop (ds : List Declaration) (p : Progress) : SetupError → Prop where
  /-- The last sink on the path leads back to one that is on it. -/
  | cycle {lead around : List String} {name : String} (path : p.path = lead ++ name :: around)
      (leads : p.LeadsTo ds name) : Stop ds p (.sinkCycle (name :: around ++ [name]))
  | undecodable {d : Declaration} {e : SetupError} (mem : d ∈ ds)
      (refused : Kind.decode d.family d.table = .error e) : Stop ds p (.within (.sink d.name) e)
  /-- A target is not declared, and those listed before it have been made. -/
  | unknownTarget {d : Declaration} {kind : Kind} {front back : List String} {t : String}
      (mem : d ∈ ds) (decoded : Kind.decode d.family d.table = .ok kind)
      (listed : kind.targets = front ++ t :: back) (made : ∀ n ∈ front, n ∈ p.made)
      (unknown : t ∉ ds.map Declaration.name) :
      Stop ds p (.within (.sink d.name) (.unknownTarget t d.name))

/-- A sink that is met on the path closes the cycle of those from there on. -/
theorem stop_of_active {name : String} (sound : p.Sound ds) (active : p.mark? name = some .active)
    (leads : p.LeadsTo ds name) : Stop ds p (.sinkCycle (p.cycle name)) := by
  obtain ⟨lead, around, path, fresh⟩ := List.eq_append_cons_of_mem ((sound.active name).mp active)
  have others : ∀ n ∈ lead, decide (n ≠ name) = true := by
    intro n mem
    rw [decide_eq_true_iff]
    rintro rfl
    exact fresh mem
  have cut : p.path.dropWhile (· ≠ name) = name :: around := by
    rw [path, List.dropWhile_append_of_pos others]
    simp only [List.dropWhile_cons, ne_eq, not_true_eq_false, decide_false, Bool.false_eq_true,
      if_false]
  rw [Progress.cycle, cut]
  exact .cycle path leads

/-- A visit that stops leaves a sound progress with targets first. -/
theorem visit_stopped (room : Nat) {name : String} (sound : p.Sound ds)
    (enough : room + p.path.length = ds.length + 1) (declared : name ∈ ds.map Declaration.name)
    (leads : p.LeadsTo ds name) (first : TargetsFirst (targetsOf ds) p.made)
    (stops : visit ds room name p = (q, some e)) :
    q.Sound ds ∧ TargetsFirst (targetsOf ds) q.made ∧ Stop ds q e := by
  induction room generalizing name p with
  | zero =>
    have := sound.path_length_le
    omega
  | succ room ih =>
    cases marked : p.mark? name with
    | some m =>
      cases m <;> simp only [visit, marked] at stops <;> cases stops
      exact ⟨sound, first, stop_of_active sound marked leads⟩
    | none =>
      cases found : Declaration.find? ds name with
      | none => exact absurd declared (find?_eq_none found)
      | some d =>
        obtain ⟨here, rfl⟩ := find?_eq_some found
        have entered := sound.enter marked declared leads
        cases decoded : Kind.decode d.family d.table with
        | error fault =>
          simp only [visit, marked, found, decoded] at stops
          cases stops
          exact ⟨entered, first, .undecodable here decoded⟩
        | ok kind =>
          rw [visit_fresh marked found decoded] at stops
          rcases below : visitEach (visitTarget ds room d.name) kind.targets (p.enter d.name) with
            ⟨r, _ | fault⟩ <;> rw [below] at stops <;> cases stops
          -- One of the targets stops the visit, when those before it have been visited.
          obtain ⟨front, t, back, mid, split, visited, stopped⟩ := visitEach_stops below
          have earlier : Outcome ds (p.enter d.name) front
              (visitEach (visitTarget ds room d.name) front (p.enter d.name)) :=
            visitEach_outcome entered fun n mem r soundR pathR =>
              visitTarget_outcome found decoded (by rw [split]; exact List.mem_append_left _ mem)
                soundR pathR enough
          obtain ⟨soundMid, pathMid, firstMid, made⟩ := targetsFirst_of_outcome earlier visited first
          rw [visitTarget] at stopped
          cases foundTarget : Declaration.find? ds t with
          | none =>
            rw [foundTarget] at stopped
            cases stopped
            refine ⟨soundMid, firstMid, ?_⟩
            exact .unknownTarget here decoded split made (find?_eq_none foundTarget)
          | some d' =>
            rw [foundTarget] at stopped
            obtain ⟨mem, rfl⟩ := find?_eq_some foundTarget
            have grown := length_path_enter pathMid
            refine ih soundMid (by omega) (List.mem_map_of_mem mem) (leadsTo_target pathMid ?_)
              firstMid stopped
            rw [targetsOf_eq found decoded, split]
            exact List.mem_append_right _ List.mem_cons_self

/-- A walk over all declarations that stops. -/
theorem walk_stopped (stops : walk ds = (q, some e)) :
    q.Sound ds ∧ TargetsFirst (targetsOf ds) q.made ∧ Stop ds q e := by
  obtain ⟨front, n, back, mid, split, visited, stopped⟩ := visitEach_stops stops
  have root {m : String} (mem : m ∈ ds.map Declaration.name) {r : Progress} (sound : r.Sound ds)
      (path : r.path = Progress.start.path) :
      ds.length + 1 + r.path.length = ds.length + 1 ∧ r.LeadsTo ds m := by
    rw [Progress.LeadsTo, path]
    exact ⟨rfl, by rintro last ⟨⟩⟩
  have earlier : Outcome ds .start front (visitEach (visit ds (ds.length + 1)) front .start) :=
    visitEach_outcome .start fun m mem r sound path =>
      have declared : m ∈ ds.map Declaration.name := by
        rw [split]
        exact List.mem_append_left _ mem
      have ready := root declared sound path
      visit_outcome _ sound ready.1 declared ready.2
  obtain ⟨sound, path, first, -⟩ := targetsFirst_of_outcome earlier visited .nil
  have declared : n ∈ ds.map Declaration.name := by
    rw [split]
    exact List.mem_append_right _ List.mem_cons_self
  have ready := root declared sound path
  exact visit_stopped _ sound ready.1 declared ready.2 first stopped

/-- However the walk over all declarations ends, it has made sinks once and after their targets. -/
theorem walk_sound (ds : List Declaration) :
    (walk ds).1.Sound ds ∧ TargetsFirst (targetsOf ds) (walk ds).1.made := by
  rcases walked : walk ds with ⟨q, _ | e⟩
  · obtain ⟨sound, -, first, -⟩ := targetsFirst_of_outcome (walk_outcome ds) walked .nil
    exact ⟨sound, first⟩
  · obtain ⟨sound, first, -⟩ := walk_stopped walked
    exact ⟨sound, first⟩

end LogTopology.Sink
