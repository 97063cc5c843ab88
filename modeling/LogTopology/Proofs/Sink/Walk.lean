import LogTopology.Proofs.NamedList
import LogTopology.Proofs.Sink.PostOrder
import LogTopology.Sink.Walk
import Mathlib.Data.List.Chain
import Mathlib.Data.List.Perm.Subperm
/-!
# What the walk keeps

The marks, the path and the list of made sinks tell one story: `Progress.Sound` says which, and
`visit_outcome` that a visit keeps it, gives the path back as it was, and makes what a depth-first
post-order lists. A visit that stops with an error has found a declaration that does not decode, a
target that is not declared or a cycle, so on declarations without these faults the walk arrives.

The bound on the sinks that wait for one another is never reached: the path has no repetition and
only declared names on it, so there is always room for one more.

`Progress.Sound` is an invariant of every point of the walk, kept when a sink is entered (`enter`)
and when it is left (`leave`); `visit_outcome` is the induction, on the bound, and the targets of a
sink are visited one after the other under it (`visitEach_outcome`). What a single target needs for
that is `outcome_of_target`, which the walks that stop use as well. The relation of a post-order has
no marks in it, and this is where the two meet: a sink is marked as done exactly when it is listed.

Which error a walk with a fault ends with has a module of its own.
-/

namespace LogTopology.Sink

/-! ## The graph of the declarations -/

/-- The names that a declared sink forwards to, in order; none when its fields do not decode. -/
def Declaration.targets (d : Declaration) : List String :=
  (Kind.decode d.family d.table).toOption.elim [] Kind.targets

/-- The names that the sink of a name forwards to. -/
def targetsOf (ds : List Declaration) (name : String) : List String :=
  (Declaration.find? ds name).elim [] Declaration.targets

/-- Every declaration has the fields that its family asks for. -/
def Decodable (ds : List Declaration) : Prop :=
  ∀ d ∈ ds, ∃ kind, Kind.decode d.family d.table = .ok kind

/-- Every name that a declared sink forwards to is declared. -/
def Closed (ds : List Declaration) : Prop :=
  ∀ d ∈ ds, ∀ t ∈ d.targets, t ∈ ds.map Declaration.name

/-- The sink of one name is declared to forward to another. -/
def ForwardsTo (ds : List Declaration) (a b : String) : Prop :=
  ∃ d ∈ ds, d.name = a ∧ b ∈ d.targets

/-- No sink forwards to itself, directly or through others. -/
def Acyclic (ds : List Declaration) : Prop :=
  ∀ a, ¬ Relation.TransGen (ForwardsTo ds) a a

/-- A declaration that is found for a name is declared and has this name. -/
theorem find?_eq_some {ds : List Declaration} {name : String} {d : Declaration}
    (h : Declaration.find? ds name = some d) : d ∈ ds ∧ d.name = name :=
  ⟨List.mem_of_find?_eq_some h, by simpa using List.find?_some h⟩

/-- When none is found for a name, none of the name is declared. -/
theorem find?_eq_none {ds : List Declaration} {name : String}
    (h : Declaration.find? ds name = none) : name ∉ ds.map Declaration.name := by
  intro mem
  obtain ⟨d, hd, hn⟩ := List.mem_map.mp mem
  exact List.find?_eq_none.mp h d hd (by simpa using hn)

/-- Something is found for every declared name. -/
theorem exists_find?_of_mem {ds : List Declaration} {name : String}
    (declared : name ∈ ds.map Declaration.name) : ∃ d, Declaration.find? ds name = some d := by
  cases found : Declaration.find? ds name with
  | some d => exact ⟨d, rfl⟩
  | none => exact absurd declared (find?_eq_none found)

/-- Where names are distinct, each declaration is the one that is found for its name. -/
theorem find?_of_mem {ds : List Declaration} (distinct : (ds.map Declaration.name).Nodup)
    {d : Declaration} (mem : d ∈ ds) : Declaration.find? ds d.name = some d := by
  induction ds with
  | nil => cases mem
  | cons first rest ih =>
    obtain ⟨fresh, distinct⟩ := List.nodup_cons.mp distinct
    rw [Declaration.find?, List.find?_cons]
    rcases List.mem_cons.mp mem with rfl | mem
    · simp
    · have other : (first.name == d.name) = false := by
        refine beq_eq_false_iff_ne.mpr fun same => fresh ?_
        exact List.mem_map.mpr ⟨d, mem, same.symm⟩
      rw [other]
      exact ih distinct mem

/-- The targets of a name are those of the decoded kind of its declaration. -/
theorem targetsOf_eq {ds : List Declaration} {name : String} {d : Declaration} {kind : Kind}
    (found : Declaration.find? ds name = some d) (decoded : Kind.decode d.family d.table = .ok kind) :
    targetsOf ds name = kind.targets := by
  simp [targetsOf, found, Declaration.targets, decoded, Except.toOption]

/-- A sink forwards to each of its targets. -/
theorem forwardsTo_of_mem_targetsOf {ds : List Declaration} {a b : String}
    (h : b ∈ targetsOf ds a) : ForwardsTo ds a b := by
  cases found : Declaration.find? ds a with
  | none => simp [targetsOf, found] at h
  | some d =>
    obtain ⟨mem, name⟩ := find?_eq_some found
    exact ⟨d, mem, name, by simpa [targetsOf, found] using h⟩

/-! ## What holds of a walk under way -/

/-- The sink that a step makes. -/
def Step.made? : Step → Option (Declaration × Kind)
  | .enter _ _ => none
  | .make d kind => some (d, kind)

/-- The sinks that some steps make, in order. -/
def makes (steps : List Step) : List (Declaration × Kind) :=
  steps.filterMap Step.made?

/-- The beginning of a visit makes no sink. -/
theorem makes_append_enter (steps : List Step) (name : String) (depth : Nat) :
    makes (steps ++ [.enter name depth]) = makes steps := by
  rw [makes, List.filterMap_append]
  exact List.append_nil _

/-- The end of a visit makes its sink, behind all others. -/
theorem makes_append_make (steps : List Step) (d : Declaration) (kind : Kind) :
    makes (steps ++ [.make d kind]) = makes steps ++ [(d, kind)] :=
  List.filterMap_append

/-- The marks, the path, the made sinks and the steps agree. -/
structure Progress.Sound (ds : List Declaration) (p : Progress) : Prop where
  done : ∀ n, p.mark? n = some .done ↔ n ∈ p.made
  active : ∀ n, p.mark? n = some .active ↔ n ∈ p.path
  madeOnce : p.made.Nodup
  pathOnce : p.path.Nodup
  madeDeclared : ∀ n ∈ p.made, n ∈ ds.map Declaration.name
  pathDeclared : ∀ n ∈ p.path, n ∈ ds.map Declaration.name
  /-- Each sink on the path forwards to the next. -/
  chain : p.path.IsChain fun a b => b ∈ targetsOf ds a
  makesMade : (makes p.steps).map (fun m => m.1.name) = p.made
  makesDecoded : ∀ m ∈ makes p.steps,
    Declaration.find? ds m.1.name = some m.1 ∧ Kind.decode m.1.family m.1.table = .ok m.2

/-- The sink that is worked on last, if any, forwards to the given one. -/
def Progress.LeadsTo (ds : List Declaration) (p : Progress) (name : String) : Prop :=
  ∀ last ∈ p.path.getLast?, name ∈ targetsOf ds last

namespace Progress.Sound

variable {ds : List Declaration} {p : Progress}

/-- Before the walk nothing is marked, on the path or made. -/
theorem start : Progress.start.Sound ds where
  done := by simp [Progress.start, mark?]
  active := by simp [Progress.start, mark?]
  madeOnce := List.nodup_nil
  pathOnce := List.nodup_nil
  madeDeclared := by simp [Progress.start]
  pathDeclared := by simp [Progress.start]
  chain := .nil
  makesMade := rfl
  makesDecoded := by simp [Progress.start, makes]

/-- Entering a sink marks this one as being worked on. -/
theorem mark?_enter {name n : String} :
    (p.enter name).mark? n = if n = name then some .active else p.mark? n :=
  lookup_cons_eq_ite ..

/-- Leaving a sink marks this one as done. -/
theorem mark?_leave {d : Declaration} {kind : Kind} {n : String} :
    (p.leave d kind).mark? n = if n = d.name then some .done else p.mark? n :=
  lookup_cons_eq_ite ..

/-- Beginning the work on a declared sink that the last one on the path forwards to. -/
theorem enter (sound : p.Sound ds) {name : String} (fresh : p.mark? name = none)
    (declared : name ∈ ds.map Declaration.name) (leads : p.LeadsTo ds name) :
    (p.enter name).Sound ds := by
  have notMade : name ∉ p.made := fun h => by simp [(sound.done name).mpr h] at fresh
  have notOnPath : name ∉ p.path := fun h => by simp [(sound.active name).mpr h] at fresh
  refine ⟨fun n => ?_, fun n => ?_, sound.madeOnce, ?_, sound.madeDeclared, ?_, ?_, ?_, ?_⟩
  · rw [mark?_enter]
    by_cases h : n = name
    · simp [Progress.enter, h, notMade]
    · simpa [Progress.enter, h] using sound.done n
  · rw [mark?_enter]
    by_cases h : n = name
    · simp [Progress.enter, h]
    · simpa [Progress.enter, h] using sound.active n
  · exact List.nodup_append.mpr ⟨sound.pathOnce, by simp, by
      intro a ha b hb
      rintro rfl
      exact notOnPath (List.mem_singleton.mp hb ▸ ha)⟩
  · intro n hn
    rcases List.mem_append.mp hn with hn | hn
    · exact sound.pathDeclared n hn
    · exact List.mem_singleton.mp hn ▸ declared
  · exact List.isChain_append.mpr ⟨sound.chain, .singleton _, by
      intro last hlast b hb
      cases hb
      exact leads last hlast⟩
  · simpa [Progress.enter, makes_append_enter] using sound.makesMade
  · simpa [Progress.enter, makes_append_enter] using sound.makesDecoded

/-- Making the sink that was worked on last. -/
theorem leave (sound : p.Sound ds) {path : List String} {d : Declaration} {kind : Kind}
    (last : p.path = path ++ [d.name]) (found : Declaration.find? ds d.name = some d)
    (decoded : Kind.decode d.family d.table = .ok kind) : (p.leave d kind).Sound ds := by
  have onPath : d.name ∈ p.path := by simp [last]
  have notMade : d.name ∉ p.made := fun h => by
    have marked := (sound.active d.name).mpr onPath
    simp [(sound.done d.name).mpr h] at marked
  have below : (p.leave d kind).path = path := by simp [Progress.leave, last]
  have once : d.name ∉ path ∧ path.Nodup := by
    have := sound.pathOnce
    rw [last, List.nodup_append] at this
    exact ⟨fun h => this.2.2 _ h _ (List.mem_singleton_self _) rfl, this.1⟩
  -- The marks change at the sink that is left and nowhere else, and the path loses its last sink.
  refine ⟨fun n => ?_, fun n => ?_, ?_, ?_, ?_, ?_, ?_, ?_, ?_⟩
  · rw [mark?_leave]
    by_cases h : n = d.name
    · simp [Progress.leave, h]
    · simpa [Progress.leave, h] using sound.done n
  · rw [mark?_leave, below]
    by_cases h : n = d.name
    · simp [h, once.1]
    · simpa [h, last] using sound.active n
  · exact List.nodup_append.mpr ⟨sound.madeOnce, by simp, by
      intro a ha b hb
      rintro rfl
      exact notMade (List.mem_singleton.mp hb ▸ ha)⟩
  · exact below ▸ once.2
  · intro n hn
    rcases List.mem_append.mp hn with hn | hn
    · exact sound.madeDeclared n hn
    · exact List.mem_singleton.mp hn ▸ sound.pathDeclared _ onPath
  · intro n hn
    exact sound.pathDeclared n (by rw [last]; exact List.mem_append_left _ (below ▸ hn))
  · have := sound.chain
    rw [last] at this
    exact below ▸ (List.isChain_append.mp this).1
  · simp [Progress.leave, makes_append_make, ← sound.makesMade]
  · intro m hm
    rw [Progress.leave, makes_append_make] at hm
    rcases List.mem_append.mp hm with hm | hm
    · exact sound.makesDecoded m hm
    · cases List.mem_singleton.mp hm
      exact ⟨found, decoded⟩

/-- Where targets come first, a sink that was made had all of its targets made before it. -/
theorem targets_before (sound : p.Sound ds) (first : TargetsFirst (targetsOf ds) p.made)
    {before after : List (Declaration × Kind)} {m : Declaration × Kind}
    (split : makes p.steps = before ++ m :: after) {t : String} (target : t ∈ m.2.targets) :
    t ∈ before.map fun m => m.1.name := by
  have made : m ∈ makes p.steps := by
    rw [split]
    exact List.mem_append_right _ List.mem_cons_self
  obtain ⟨found, decoded⟩ := sound.makesDecoded m made
  refine first _ m.1.name (after.map fun m => m.1.name) ?_ t ?_
  · rw [← sound.makesMade, split, List.map_append, List.map_cons]
  · rwa [targetsOf_eq found decoded]

/-- There are no more sinks on the path than declared ones. -/
theorem path_length_le (sound : p.Sound ds) : p.path.length ≤ ds.length := by
  have := (List.subperm_of_subset sound.pathOnce sound.pathDeclared).length_le
  simpa using this

/-- The sinks on the path from a given one on close a circle when it is about to be visited. -/
theorem circle_of_path (sound : p.Sound ds) {before after : List String} {name : String}
    (split : p.path = before ++ name :: after) (leads : p.LeadsTo ds name) :
    ((name :: after) ++ [name]).IsChain fun a b => b ∈ targetsOf ds a := by
  have tail : (name :: after).IsChain fun a b => b ∈ targetsOf ds a := by
    have := sound.chain
    rw [split] at this
    exact (List.isChain_append.mp this).2.1
  refine List.isChain_append.mpr ⟨tail, .singleton _, ?_⟩
  intro last hlast b hb
  cases hb
  refine leads last ?_
  rw [split, List.getLast?_append]
  simp [Option.mem_def.mp hlast]

/-- The sinks on the path from a given one on lead to the sink that is about to be visited. -/
theorem cycle_of_mem_path (sound : p.Sound ds) {name : String} (mem : name ∈ p.path)
    (leads : p.LeadsTo ds name) : Relation.TransGen (ForwardsTo ds) name name := by
  obtain ⟨before, after, split⟩ := List.append_of_mem mem
  have reached : ((name :: after) ++ [name]).IsChain (Relation.TransGen (ForwardsTo ds)) :=
    (sound.circle_of_path split leads).imp fun _ _ edge => .single (forwardsTo_of_mem_targetsOf edge)
  exact reached.rel_cons (by simp)

end Progress.Sound

/-! ## Visits -/

/-- Where a visit of some names ends. Without an error it gives the path back and has made what a
depth-first post-order lists; an error shows a fault of the declarations. -/
def Outcome (ds : List Declaration) (p : Progress) (names : List String) : Visited → Prop
  | (q, none) => q.Sound ds ∧ q.path = p.path ∧ PostOrder (targetsOf ds) p.made names q.made
  | (_, some _) => ¬ (Decodable ds ∧ Closed ds ∧ Acyclic ds)

variable {ds : List Declaration} {p q : Progress}

/-- Where the path ends with a sink, it leads to the sink's targets. -/
theorem leadsTo_target {name t : String} (path : q.path = (p.enter name).path)
    (target : t ∈ targetsOf ds name) : q.LeadsTo ds t := by
  intro last isLast
  rw [path] at isLast
  simp only [Progress.enter, List.getLast?_append, List.getLast?_singleton, Option.some_or,
    Option.mem_some] at isLast
  rwa [← isLast]

/-- A visit has one more sink on its path than the visit that it is part of. -/
theorem length_path_enter {name : String} (path : q.path = (p.enter name).path) :
    q.path.length = p.path.length + 1 := by
  rw [path]
  exact List.length_append

/-- Visits one after the other, each of which starts on the same path. -/
theorem visitEach_outcome {f : String → Progress → Visited} {names : List String} {p : Progress}
    (sound : p.Sound ds)
    (each : ∀ n ∈ names, ∀ q, q.Sound ds → q.path = p.path → Outcome ds q [n] (f n q)) :
    Outcome ds p names (visitEach f names p) := by
  induction names generalizing p with
  | nil => exact ⟨sound, rfl, .nil _⟩
  | cons n names ih =>
    have first := each n List.mem_cons_self p sound rfl
    rw [visitEach]
    generalize f n p = visited at first ⊢
    obtain ⟨q, _ | e⟩ := visited
    · obtain ⟨soundFirst, pathFirst, orderFirst⟩ := first
      have rest := ih soundFirst fun m hm r soundRest pathRest =>
        each m (List.mem_cons_of_mem _ hm) r soundRest (pathRest.trans pathFirst)
      change Outcome ds p (n :: names) (visitEach f names q)
      generalize visitEach f names q = visited at rest ⊢
      obtain ⟨r, _ | e⟩ := visited
      · exact ⟨rest.1, rest.2.1.trans pathFirst, orderFirst.append rest.2.2⟩
      · exact rest
    · exact first

/-- The visit of a target on behalf of the sink that forwards to it. -/
def visitTarget (ds : List Declaration) (room : Nat) (name target : String) (p : Progress) :
    Visited :=
  match Declaration.find? ds target with
  | none => (p, some (.within (.sink name) (.unknownTarget target name)))
  | some _ => visit ds room target p

/-- The visit of a target ends as that of any sink does, when the visit of a declared one that the
path leads to does. -/
theorem outcome_of_target {room : Nat} {d : Declaration} {kind : Kind} {t : String}
    (found : Declaration.find? ds d.name = some d)
    (decoded : Kind.decode d.family d.table = .ok kind) (target : t ∈ kind.targets)
    (path : q.path = (p.enter d.name).path)
    (visited : t ∈ ds.map Declaration.name → q.LeadsTo ds t → Outcome ds q [t] (visit ds room t q)) :
    Outcome ds q [t] (visitTarget ds room d.name t q) := by
  rw [visitTarget]
  cases foundTarget : Declaration.find? ds t with
  | none =>
    intro faultless
    have listed : t ∈ d.targets := by
      simpa [Declaration.targets, decoded, Except.toOption] using target
    exact find?_eq_none foundTarget (faultless.2.1 d (find?_eq_some found).1 t listed)
  | some d' =>
    obtain ⟨mem, rfl⟩ := find?_eq_some foundTarget
    refine visited (List.mem_map_of_mem mem) (leadsTo_target path ?_)
    rwa [targetsOf_eq found decoded]

/-- The visit of a sink that has not been met before: its targets first, then the sink. -/
theorem visit_fresh {room : Nat} {name : String} {p : Progress} {d : Declaration} {kind : Kind}
    (fresh : p.mark? name = none) (found : Declaration.find? ds name = some d)
    (decoded : Kind.decode d.family d.table = .ok kind) :
    visit ds (room + 1) name p =
      match visitEach (visitTarget ds room name) kind.targets (p.enter name) with
      | (q, some e) => (q, some e)
      | (q, none) => (q.leave d kind, none) := by
  simp only [visit, fresh, found, decoded]
  rfl

/-- A visit of a declared sink that the path leads to, with as much room left as there are declared
sinks beside those on the path, and one more. -/
theorem visit_outcome (room : Nat) {name : String} {p : Progress} (sound : p.Sound ds)
    (enough : room + p.path.length = ds.length + 1) (declared : name ∈ ds.map Declaration.name)
    (leads : p.LeadsTo ds name) : Outcome ds p [name] (visit ds room name p) := by
  induction room generalizing name p with
  | zero =>
    -- Every visit that is open holds a declared sink of its own, so the room cannot be used up.
    have := sound.path_length_le
    omega
  | succ room ih =>
    cases marked : p.mark? name with
    | some m =>
      cases m with
      | done =>
        simp only [visit, marked]
        exact ⟨sound, rfl, .skip ((sound.done name).mp marked) (.nil _)⟩
      | active =>
        simp only [visit, marked]
        intro faultless
        -- The sink is met again on the path that leads to it.
        have onPath := (sound.active name).mp marked
        exact faultless.2.2 name (sound.cycle_of_mem_path onPath leads)
    | none =>
      cases found : Declaration.find? ds name with
      | none => exact absurd declared (find?_eq_none found)
      | some d =>
        obtain ⟨mem, rfl⟩ := find?_eq_some found
        cases decoded : Kind.decode d.family d.table with
        | error e =>
          simp only [visit, marked, found, decoded]
          intro faultless
          obtain ⟨kind, hk⟩ := faultless.1 d mem
          rw [decoded] at hk
          cases hk
        | ok kind =>
          have targets := targetsOf_eq found decoded
          have below : Outcome ds (p.enter d.name) kind.targets
              (visitEach (visitTarget ds room d.name) kind.targets (p.enter d.name)) := by
            -- Each target is visited with the sink on the path, so its room is less by one.
            refine visitEach_outcome (sound.enter marked declared leads) fun t ht q soundQ pathQ => ?_
            have grown := length_path_enter pathQ
            exact outcome_of_target found decoded ht pathQ fun declared leads =>
              ih soundQ (by omega) declared leads
          rw [visit_fresh marked found decoded]
          generalize visitEach _ kind.targets (p.enter d.name) = visited at below ⊢
          obtain ⟨q, _ | e⟩ := visited
          · obtain ⟨soundQ, pathQ, order⟩ := below
            have fresh : d.name ∉ p.made := fun h => by
              rw [(sound.done d.name).mpr h] at marked
              cases marked
            refine ⟨soundQ.leave pathQ found decoded, ?_, .visit fresh ?_ (.nil _)⟩
            · simp [Progress.leave, pathQ, Progress.enter]
            · rw [targets]
              exact order
          · exact below

/-- The walk over all declarations makes each of them once and after its targets, unless the
declarations are at fault. -/
theorem walk_outcome (ds : List Declaration) :
    Outcome ds .start (ds.map Declaration.name) (walk ds) :=
  visitEach_outcome .start fun n hn q soundQ pathQ =>
    visit_outcome _ soundQ (by rw [pathQ]; rfl) hn (by
      intro last hlast
      rw [pathQ] at hlast
      cases hlast)

/-- A walk that arrives has met no undeclared target and no cycle: what it made is closed, and
targets come first in it. -/
theorem closed_and_acyclic_of_postOrder {made : List String}
    (order : PostOrder (targetsOf ds) [] (ds.map Declaration.name) made)
    (distinct : (ds.map Declaration.name).Nodup)
    (madeDeclared : ∀ n ∈ made, n ∈ ds.map Declaration.name) : Closed ds ∧ Acyclic ds := by
  have first := order.targetsFirst .nil
  have edge {a b : String} (h : ForwardsTo ds a b) : a ∈ made ∧ b ∈ targetsOf ds a := by
    obtain ⟨d, mem, rfl, target⟩ := h
    refine ⟨order.mem_of_root _ (List.mem_map_of_mem mem), ?_⟩
    rwa [targetsOf, find?_of_mem distinct mem]
  constructor
  · intro d mem t ht
    obtain ⟨listed, target⟩ := edge ⟨d, mem, rfl, ht⟩
    obtain ⟨before, after, rfl⟩ := List.append_of_mem listed
    exact madeDeclared t (List.mem_append_left _ (first before _ after rfl t target))
  · intro a leads
    have onward : Relation.TransGen (fun a b => b ∈ targetsOf ds a) a a :=
      leads.lift id fun _ _ h => (edge h).2
    obtain ⟨b, h, _⟩ := Relation.TransGen.head'_iff.mp leads
    exact first.acyclic (edge h).1 onward

end LogTopology.Sink
