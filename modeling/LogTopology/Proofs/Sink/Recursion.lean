import LogTopology.Journal
import LogTopology.Proofs.Sink.Descent
import LogTopology.Proofs.Sink.Stopped
/-!
# The recursion ends

Every visit of the walk is some turns of a descent: `GoesAs` says that these turns, from a descent
with the progress of the walk, are the plan that follows the steps which the visit has added, and
that they leave the descent with the progress that the visit ends with. The laws put turns one after
the other; `visit_goesAs` is by the recursion of the walk, with what a visit keeps (`visit_outcome`)
for the handles that the targets have come to. From the start, then, a descent has ended after some
number of turns, whatever the declarations and whatever the backend, and has made the table of
`resolve`.

The number of turns is not bounded here.
-/

namespace LogTopology

variable {σ S P L α β : Type}

/-! ## Plans one after the other -/

namespace Plan

/-- Mapping nothing over a plan leaves it. -/
theorem bind_pure_id (p : Plan S P L α) : id <$> p = p := by
  change p.andThen (fun a => Plan.done (id a)) = p
  induction p with
  | done a => rfl
  | fail e => rfl
  | note e next ih => exact congrArg (note e) ih
  | call c wrap resume ih => exact congrArg (call c wrap) (funext ih)

/-- Plans may be put together from either side. -/
theorem andThen_assoc {γ : Type} (p : Plan S P L α) (f : α → Plan S P L β)
    (g : β → Plan S P L γ) : (p.andThen f).andThen g = p.andThen fun a => (f a).andThen g := by
  induction p with
  | done a => rfl
  | fail e => rfl
  | note e next ih => exact congrArg (note e) ih
  | call c wrap resume ih => exact congrArg (call c wrap) (funext ih)

instance : LawfulMonad (Plan S P L) :=
  .mk' _ bind_pure_id (fun _ _ => rfl) andThen_assoc

end Plan

namespace Sink

/-! ## Steps one after the other -/

/-- The names of the sinks that some steps make, in order. -/
def namesMade (steps : List Step) : List String :=
  (makes steps).map fun m => m.1.name

/-- Steps put together make the sinks of the first ones, then those of the rest. -/
theorem namesMade_append (first rest : List Step) :
    namesMade (first ++ rest) = namesMade first ++ namesMade rest := by
  rw [namesMade, makes, List.filterMap_append, List.map_append]
  rfl

/-- Following steps put together is following the first ones, then the rest. -/
theorem follow_append (table : SinkTable S) (first rest : List Step) :
    (follow table (first ++ rest) : Plan S P L (SinkTable S)) =
      follow table first >>= fun table => follow table rest := by
  induction first generalizing table with
  | nil => rfl
  | cons step first ih =>
    cases step with
    | enter name depth => simp only [List.cons_append, follow, bind_assoc, ih]
    | make d kind => simp only [List.cons_append, follow, bind_assoc, ih]

/-- What comes after some steps need only agree on the tables that these steps can come to. -/
theorem follow_bind_congr {table : SinkTable S} {steps : List Step}
    {f g : SinkTable S → Plan S P L β}
    (same : ∀ new : SinkTable S, new.map Prod.fst = namesMade steps →
      f (table ++ new) = g (table ++ new)) :
    follow table steps >>= f = follow table steps >>= g := by
  induction steps generalizing table with
  | nil =>
    have alike := same [] rfl
    rw [List.append_nil] at alike
    exact alike
  | cons step steps ih =>
    cases step with
    | enter name depth =>
      simp only [follow, bind_assoc]
      exact congrArg _ (funext fun _ => ih same)
    | make d kind =>
      simp only [follow, bind_assoc]
      refine congrArg _ (funext fun sink => ih fun new names => ?_)
      rw [List.append_assoc]
      refine same _ ?_
      change _ :: new.map Prod.fst = _
      rw [names]
      rfl

/-- The last sink on the path is still to be made. -/
theorem Progress.Sound.not_made_of_last {ds : List Declaration} {p q : Progress} {name : String}
    (sound : q.Sound ds) (path : q.path = (p.enter name).path) : name ∉ q.made := by
  intro made
  have onPath : name ∈ q.path := by
    rw [path]
    exact List.mem_append_right _ (List.mem_singleton_self _)
  have active := (sound.active name).mpr onPath
  rw [(sound.done name).mpr made] at active
  cases active

/-- A handle that a table has, a longer table has too. -/
theorem lookup_append_of_eq_some {table new : SinkTable S} {n : String} {sink : S}
    (found : table.lookup n = some sink) : (table ++ new).lookup n = some sink := by
  rw [List.lookup_append, found]
  rfl

namespace Descent

/-! ## Turns one after the other -/

variable {ds : List Declaration} {p q : Progress} {X Y : Type}

/-- What comes after a visit that has ended like this. -/
def proceed (ds : List Declaration) (more : Nat) :
    Option SetupError → Option (Descent S) → Plan S P L (Option (SinkTable S))
  | some e, _ => .fail e
  | none, some r => turns ds more r
  | none, none => pure none

/-- A number of turns from the descents that `before` gives does what a visit of the walk has added
to the steps, and comes to the descents that `after` gives or fails with the visit's error. -/
def GoesAs (S P L : Type) (ds : List Declaration) (p : Progress) (visited : Visited)
    (before : X → SinkTable S → Descent S) (after : X → SinkTable S → Option (Descent S)) : Prop :=
  ∃ k steps, visited.1.steps = p.steps ++ steps ∧
    visited.1.made = p.made ++ namesMade steps ∧
    ∀ x (table : SinkTable S), table.map Prod.fst = p.made → ∀ more,
      (turns ds (k + more) (before x table) : Plan S P L (Option (SinkTable S))) =
        follow table steps >>= fun table => proceed ds more visited.2 (after x table)

variable {visited : Visited} {before : X → SinkTable S → Descent S}
  {after : X → SinkTable S → Option (Descent S)}

/-- Turns after turns. What the first ones come to is where the others begin, for every table that
they can come to, and the table has only grown when the others have ended. -/
theorem GoesAs.trans {mid : Y → SinkTable S → Descent S}
    {between : X → SinkTable S → Option (Descent S)} {last : Y → SinkTable S → Option (Descent S)}
    (first : GoesAs S P L ds p (q, none) before between)
    (rest : GoesAs S P L ds q visited mid last)
    (join : ∀ x (table : SinkTable S), table.map Prod.fst = q.made →
      ∃ y, between x table = some (mid y table) ∧
        ∀ new : SinkTable S, (table ++ new).map Prod.fst = visited.1.made →
          last y (table ++ new) = after x (table ++ new)) :
    GoesAs S P L ds p visited before after := by
  obtain ⟨k, steps, grown, made, turned⟩ := first
  obtain ⟨k', steps', grown', made', turned'⟩ := rest
  refine ⟨k + k', steps ++ steps', ?_, ?_, fun x table names more => ?_⟩
  · rw [grown', grown, List.append_assoc]
  · rw [made', made, namesMade_append, List.append_assoc]
  · rw [Nat.add_assoc, turned x table names, follow_append, bind_assoc]
    refine follow_bind_congr fun new here => ?_
    have namesHere : (table ++ new).map Prod.fst = q.made := by
      rw [List.map_append, names, here, made]
    obtain ⟨y, joined, same⟩ := join x _ namesHere
    rw [joined]
    change turns ds (k' + more) (mid y (table ++ new)) = _
    rw [turned' y _ namesHere]
    refine follow_bind_congr fun newer there => ?_
    have namesThere : (table ++ new ++ newer).map Prod.fst = visited.1.made := by
      rw [List.map_append, namesHere, there, made']
    rw [same newer namesThere]

/-- One turn. -/
theorem GoesAs.of_turn (steps : List Step) (grown : visited.1.steps = p.steps ++ steps)
    (made : visited.1.made = p.made ++ namesMade steps)
    (unended : ∀ x table, (before x table).result? = none)
    (goes : ∀ x (table : SinkTable S), table.map Prod.fst = p.made → ∀ more,
      ((before x table).turn ds >>= turns ds more : Plan S P L (Option (SinkTable S))) =
        follow table steps >>= fun table => proceed ds more visited.2 (after x table)) :
    GoesAs S P L ds p visited before after := by
  refine ⟨1, steps, grown, made, fun x table names more => ?_⟩
  rw [Nat.add_comm, turns, unended x table]
  exact goes x table names more

/-- One turn that asks for nothing. -/
theorem GoesAs.of_turn_pure {next : X → SinkTable S → Descent S}
    (unended : ∀ x table, (before x table).result? = none)
    (goes : ∀ x (table : SinkTable S), table.map Prod.fst = p.made →
      ((before x table).turn ds : Plan S P L (Descent S)) = pure (next x table)) :
    GoesAs S P L ds p (p, none) before (fun x table => some (next x table)) := by
  refine .of_turn [] (List.append_nil _).symm (List.append_nil _).symm unended ?_
  intro x table names more
  rw [goes x table names]
  rfl

/-- One turn that fails. -/
theorem GoesAs.of_turn_fail {e : SetupError}
    (unended : ∀ x table, (before x table).result? = none)
    (goes : ∀ x (table : SinkTable S),
      ((before x table).turn ds : Plan S P L (Descent S)) = .fail e) :
    GoesAs S P L ds p (p, some e) before after := by
  refine .of_turn [] (List.append_nil _).symm (List.append_nil _).symm unended ?_
  intro x table names more
  rw [goes x table]
  rfl

/-! ## Visits that are asked for -/

/-- A visit, whatever the visits are that it is part of. -/
def VisitGoesAs (S P L : Type) (ds : List Declaration) (p : Progress) (n : String)
    (visited : Visited) : Prop :=
  ∀ waiting, GoesAs S P L ds p visited
    (fun frames table => ⟨p, table, frames, waiting, .enter n⟩)
    (fun frames table =>
      (table.lookup n).map fun sink => ⟨visited.1, table, frames, waiting, .leave n sink⟩)

/-- What asks for visits one after the other. -/
inductive Caller where
  /-- A sink that is worked on asks for its targets. -/
  | sink (d : Declaration) (kind : Kind) (waiting : List String)
  /-- The declared sinks are taken in order. -/
  | document

namespace Caller

/-- The frames while some names are still to be asked for, with the handles that the caller has
been given and the frames of the visits that it is part of. -/
def frames : Caller → List S × List (Frame S) → List String → List (Frame S)
  | sink d kind _, (forwards, outer), names => ⟨d, kind, forwards, names⟩ :: outer
  | document, _, _ => []

def waiting : Caller → List String → List String
  | sink _ _ waiting, _ => waiting
  | document, names => names

/-- A descent in which a caller is about to ask for the visits of some names. -/
def asking (c : Caller) (names : List String) (p : Progress) (x : List S × List (Frame S))
    (table : SinkTable S) : Descent S :=
  ⟨p, table, c.frames x names, c.waiting names, .onward⟩

variable {c : Caller} {n : String} {names : List String} {x : List S × List (Frame S)}
  {table : SinkTable S}

/-- A caller that asks for one more visit has not come to the end. -/
theorem result?_asking : (c.asking (n :: names) p x table).result? = none := by
  cases c <;> rfl

/-- A caller turns to the next name, if it is declared. -/
theorem turn_asking {d : Declaration} (known : Declaration.find? ds n = some d) :
    ((c.asking (n :: names) p x table).turn ds : Plan S P L (Descent S)) =
      pure ⟨p, table, c.frames x names, c.waiting names, .enter n⟩ := by
  cases c with
  | sink d' kind waiting =>
    simp only [asking, frames, turn, goOn, known]
    rfl
  | document => rfl

/-- A sink whose next target is not declared fails in its own context. -/
theorem turn_asking_unknown {d : Declaration} {kind : Kind} {waiting : List String}
    (unknown : Declaration.find? ds n = none) :
    (((sink d kind waiting).asking (n :: names) p x table).turn ds : Plan S P L (Descent S)) =
      .fail (.within (.sink d.name) (.unknownTarget n d.name)) := by
  simp only [asking, frames, turn, goOn, unknown]

/-- The handle of a visit goes to the caller, behind those that it has been given. -/
theorem receive_answer (handle : S) :
    receive ⟨p, table, c.frames x names, c.waiting names, .leave n handle⟩ handle =
      c.asking names p (x.1 ++ [handle], x.2) table := by
  cases c <;> rfl

end Caller

/-- A visit that is asked for and gives its handle back. -/
theorem VisitGoesAs.asked {n : String} {d : Declaration} (goes : VisitGoesAs S P L ds p n visited)
    (outcome : Outcome ds p [n] visited) (known : Declaration.find? ds n = some d)
    (c : Caller) (names : List String) :
    GoesAs S P L ds p visited (c.asking (n :: names) p) fun x table =>
      (table.lookup n).map fun handle =>
        c.asking names visited.1 (x.1 ++ [handle], x.2) table := by
  have visit : GoesAs S P L ds p visited (c.asking (n :: names) p) fun x table =>
      (table.lookup n).map fun handle =>
        ⟨visited.1, table, c.frames x names, c.waiting names, .leave n handle⟩ :=
    (GoesAs.of_turn_pure (fun _ _ => Caller.result?_asking) fun _ _ _ =>
      Caller.turn_asking known).trans (goes (c.waiting names))
      fun x table _ => ⟨c.frames x names, rfl, fun _ _ => rfl⟩
  obtain ⟨q, _ | e⟩ := visited
  · have back : GoesAs S P L ds q (q, none)
        (fun (y : (List S × List (Frame S)) × S) table =>
          ⟨q, table, c.frames y.1 names, c.waiting names, .leave n y.2⟩)
        (fun y table => some (c.asking names q (y.1.1 ++ [y.2], y.1.2) table)) :=
      .of_turn_pure (fun _ _ => rfl) fun y _ _ => congrArg pure (Caller.receive_answer y.2)
    refine visit.trans back fun x table made => ?_
    have listed : n ∈ table.map Prod.fst := made ▸ outcome.2.2.mem_of_root n List.mem_cons_self
    obtain ⟨handle, found⟩ := exists_lookup_of_mem_names listed
    refine ⟨(x, handle), by rw [found]; rfl, fun new _ => ?_⟩
    rw [lookup_append_of_eq_some found]
    rfl
  · -- Nothing is given back by a visit that stops.
    exact visit

/-- Visits one after the other, with their handles handed on in order. -/
theorem visitEach_goesAs {f : String → Progress → Visited} {names : List String} {p : Progress}
    (c : Caller) (sound : p.Sound ds)
    (each : ∀ n ∈ names, ∀ rest q, q.Sound ds → q.path = p.path → Outcome ds q [n] (f n q) ∧
      GoesAs S P L ds q (f n q) (c.asking (n :: rest) q) fun x table =>
        (table.lookup n).map fun handle =>
          c.asking rest (f n q).1 (x.1 ++ [handle], x.2) table) :
    GoesAs S P L ds p (visitEach f names p) (c.asking names p) fun x table =>
      some (c.asking [] (visitEach f names p).1
        (x.1 ++ names.filterMap (fun n => table.lookup n), x.2) table) := by
  induction names generalizing p with
  | nil =>
    refine ⟨0, [], (List.append_nil _).symm, (List.append_nil _).symm, fun x table _ more => ?_⟩
    rw [Nat.zero_add]
    change _ = turns ds more (c.asking [] p (x.1 ++ [], x.2) table)
    rw [List.append_nil]
  | cons n names ih =>
    obtain ⟨outcome, first⟩ := each n List.mem_cons_self names p sound rfl
    rw [visitEach]
    generalize f n p = visited at outcome first ⊢
    obtain ⟨q, _ | e⟩ := visited
    · obtain ⟨soundQ, path, order⟩ := outcome
      have rest := ih soundQ fun m mem rest r soundR same =>
        each m (List.mem_cons_of_mem _ mem) rest r soundR (same.trans path)
      refine first.trans rest fun x table made => ?_
      -- Its visit has made the target, so the handle is found in the table.
      have listed : n ∈ table.map Prod.fst := made ▸ order.mem_of_root n List.mem_cons_self
      obtain ⟨handle, found⟩ := exists_lookup_of_mem_names listed
      refine ⟨(x.1 ++ [handle], x.2), by rw [found]; rfl, fun new _ => ?_⟩
      rw [List.filterMap_cons, lookup_append_of_eq_some found, List.append_assoc]
      rfl
    · exact first

/-! ## The visits of the walk -/

variable {name : String} {d : Declaration} {kind : Kind}

/-- A sink that is done is found in the table. -/
theorem done_goesAs (sound : p.Sound ds) (marked : p.mark? name = some .done)
    (waiting : List String) :
    GoesAs S P L ds p (p, none) (fun frames table => ⟨p, table, frames, waiting, .enter name⟩)
      fun frames table =>
        (table.lookup name).map fun sink => ⟨p, table, frames, waiting, .leave name sink⟩ := by
  refine .of_turn [] (List.append_nil _).symm (List.append_nil _).symm (fun _ _ => rfl) ?_
  intro frames table made more
  have listed : name ∈ table.map Prod.fst := made ▸ (sound.done name).mp marked
  obtain ⟨handle, held⟩ := exists_lookup_of_mem_names listed
  simp only [turn, enter, marked, held, follow, pure_bind]
  rfl

/-- The work on a new sink begins. -/
theorem enter_goesAs (fresh : p.mark? name = none) (found : Declaration.find? ds name = some d)
    (decoded : Kind.decode d.family d.table = .ok kind) (waiting : List String) :
    GoesAs S P L ds p (p.enter name, none)
      (fun frames table => ⟨p, table, frames, waiting, .enter name⟩)
      fun frames table => some ((Caller.sink d kind waiting).asking kind.targets (p.enter name)
        ([], frames) table) := by
  refine .of_turn [.enter name p.path.length] rfl (List.append_nil _).symm (fun _ _ => rfl) ?_
  intro frames table _ more
  simp only [turn, enter, fresh, found, decoded, follow]
  rfl

/-- The work on a new sink fails when its fields do not decode. -/
theorem enter_goesAs_of_error {e : SetupError} (fresh : p.mark? name = none)
    (found : Declaration.find? ds name = some d)
    (refused : Kind.decode d.family d.table = .error e) (waiting : List String)
    {after : List (Frame S) → SinkTable S → Option (Descent S)} :
    GoesAs S P L ds p (p.enter name, some (.within (.sink name) e))
      (fun frames table => ⟨p, table, frames, waiting, .enter name⟩) after := by
  refine .of_turn [.enter name p.path.length] rfl (List.append_nil _).symm (fun _ _ => rfl) ?_
  intro frames table _ more
  simp only [turn, enter, fresh, found, refused, follow]
  rfl

/-- A sink is made of the handles of its targets. -/
theorem leave_goesAs (notMade : d.name ∉ p.made) (waiting : List String) :
    GoesAs S P L ds p (p.leave d kind, none)
      (fun frames table => (Caller.sink d kind waiting).asking [] p
        (kind.targets.filterMap (fun t => table.lookup t), frames) table)
      fun frames table => (table.lookup d.name).map fun handle =>
        ⟨p.leave d kind, table, frames, waiting, .leave d.name handle⟩ := by
  refine .of_turn [.make d kind] rfl rfl (fun _ _ => rfl) ?_
  intro frames table made more
  simp only [follow, bind_assoc]
  change ((construct d kind _).within (.sink d.name) >>= _) >>= _ = _
  rw [bind_assoc]
  refine congrArg _ (funext fun handle => ?_)
  have new : d.name ∉ table.map Prod.fst := made ▸ notMade
  have held : (table ++ [(d.name, handle)]).lookup d.name = some handle := by
    rw [List.lookup_append, lookup_eq_none_of_not_mem new, Option.none_or, List.lookup_cons_self]
  rw [pure_bind, pure_bind, held]
  change turns ds more
    ⟨p.leave d kind, writeNamed d.name handle table, frames, waiting, .leave d.name handle⟩ = _
  rw [writeNamed_of_new new]
  rfl

/-- A target is visited on behalf of a sink that is worked on. -/
theorem visitTarget_goesAs {room : Nat} {t : String} {q : Progress}
    (found : Declaration.find? ds d.name = some d)
    (decoded : Kind.decode d.family d.table = .ok kind) (target : t ∈ kind.targets)
    (sound : q.Sound ds) (path : q.path = (p.enter d.name).path)
    (enough : room + 1 + p.path.length = ds.length + 1)
    (visits : t ∈ ds.map Declaration.name → q.LeadsTo ds t →
      VisitGoesAs S P L ds q t (visit ds room t q))
    (waiting rest : List String) :
    GoesAs S P L ds q (visitTarget ds room d.name t q)
      ((Caller.sink d kind waiting).asking (t :: rest) q) fun x table =>
        (table.lookup t).map fun handle => (Caller.sink d kind waiting).asking rest
          (visitTarget ds room d.name t q).1 (x.1 ++ [handle], x.2) table := by
  have outcome := visitTarget_outcome found decoded target sound path enough
  cases known : Declaration.find? ds t with
  | none =>
    simp only [visitTarget, known]
    exact .of_turn_fail (fun _ _ => Caller.result?_asking) fun _ _ =>
      Caller.turn_asking_unknown known
  | some d' =>
    obtain ⟨mem, rfl⟩ := find?_eq_some known
    have goes := visits (List.mem_map_of_mem mem)
      (leadsTo_target path (by rwa [targetsOf_eq found decoded]))
    rw [visitTarget, known] at outcome ⊢
    exact goes.asked outcome known _ rest

/-- The visit of a new sink, given those of its targets. -/
theorem visit_fresh_goesAs {room : Nat} (sound : p.Sound ds)
    (enough : room + 1 + p.path.length = ds.length + 1) (fresh : p.mark? d.name = none)
    (found : Declaration.find? ds d.name = some d)
    (decoded : Kind.decode d.family d.table = .ok kind) (leads : p.LeadsTo ds d.name)
    (visits : ∀ t q, q.Sound ds → q.path = (p.enter d.name).path → t ∈ ds.map Declaration.name →
      q.LeadsTo ds t → VisitGoesAs S P L ds q t (visit ds room t q)) :
    VisitGoesAs S P L ds p d.name (visit ds (room + 1) d.name p) := by
  intro waiting
  have declared : d.name ∈ ds.map Declaration.name := List.mem_map_of_mem (find?_eq_some found).1
  have entered := sound.enter fresh declared leads
  have outcome {t : String} {q : Progress} (target : t ∈ kind.targets) (soundQ : q.Sound ds)
      (pathQ : q.path = (p.enter d.name).path) :
      Outcome ds q [t] (visitTarget ds room d.name t q) :=
    visitTarget_outcome found decoded target soundQ pathQ enough
  have below := visitEach_outcome entered fun t target q => outcome target
  have targets := visitEach_goesAs (S := S) (P := P) (L := L) (.sink d kind waiting) entered
    fun t target rest q soundQ pathQ => ⟨outcome target soundQ pathQ,
      visitTarget_goesAs found decoded target soundQ pathQ enough (visits t q soundQ pathQ)
        waiting rest⟩
  -- The sink is entered and its targets are visited; leaving it is the last stretch of turns.
  have begun : GoesAs S P L ds p
      (visitEach (visitTarget ds room d.name) kind.targets (p.enter d.name))
      (fun frames table => ⟨p, table, frames, waiting, .enter d.name⟩)
      fun frames table => some ((Caller.sink d kind waiting).asking []
        (visitEach (visitTarget ds room d.name) kind.targets (p.enter d.name)).1
        (kind.targets.filterMap (fun t => table.lookup t), frames) table) :=
    (enter_goesAs fresh found decoded waiting).trans targets
      fun frames table _ => ⟨([], frames), rfl, fun _ _ => rfl⟩
  rw [visit_fresh fresh found decoded]
  generalize visitEach _ kind.targets (p.enter d.name) = visited at below begun ⊢
  obtain ⟨q, _ | e⟩ := visited
  · obtain ⟨soundQ, pathQ, -⟩ := below
    refine begun.trans (leave_goesAs (soundQ.not_made_of_last pathQ) waiting) ?_
    exact fun frames table _ => ⟨frames, rfl, fun _ _ => rfl⟩
  · exact begun

/-- A visit of the walk is told by the turns of a descent. -/
theorem visit_goesAs (room : Nat) (sound : p.Sound ds)
    (enough : room + p.path.length = ds.length + 1) (declared : name ∈ ds.map Declaration.name)
    (leads : p.LeadsTo ds name) : VisitGoesAs S P L ds p name (visit ds room name p) := by
  induction room generalizing name p with
  | zero =>
    -- The path has no more sinks than are declared, so there is room for a visit.
    have := sound.path_length_le
    omega
  | succ room ih =>
    cases marked : p.mark? name with
    | some m =>
      intro waiting
      cases m with
      | done =>
        simp only [visit, marked]
        exact done_goesAs sound marked waiting
      | active =>
        simp only [visit, marked]
        refine .of_turn_fail (fun _ _ => rfl) fun frames table => ?_
        simp only [turn, enter, marked]
    | none =>
      obtain ⟨d, found⟩ := exists_find?_of_mem declared
      obtain ⟨-, rfl⟩ := find?_eq_some found
      cases decoded : Kind.decode d.family d.table with
      | error e =>
        intro waiting
        simp only [visit, marked, found, decoded]
        exact enter_goesAs_of_error marked found decoded waiting
      | ok kind =>
        refine visit_fresh_goesAs sound enough marked found decoded leads fun t q soundQ pathQ => ?_
        have grown := length_path_enter pathQ
        exact ih soundQ (by omega)

/-- The walk over all declarations is told by the turns of a descent from its start. -/
theorem walk_goesAs (ds : List Declaration) :
    GoesAs S P L ds .start (walk ds) (Caller.document.asking (ds.map Declaration.name) .start)
      fun x table => some (Caller.document.asking [] (walk ds).1
        (x.1 ++ (ds.map Declaration.name).filterMap (fun n => table.lookup n), x.2) table) := by
  refine visitEach_goesAs .document .start fun n mem rest q sound path => ?_
  have enough : ds.length + 1 + q.path.length = ds.length + 1 := by rw [path]; rfl
  have leads : q.LeadsTo ds n := by
    rw [Progress.LeadsTo, path]
    rintro last ⟨⟩
  obtain ⟨d, known⟩ := exists_find?_of_mem mem
  have outcome := visit_outcome _ sound enough mem leads
  exact ⟨outcome, (visit_goesAs _ sound enough mem leads).asked outcome known .document rest⟩

/-! ## The whole recursion -/

/-- Where the names are distinct, the map and the list of made names are the table. -/
theorem table_eq {frames : List (Frame S)} {waiting : List String} {moment : Moment S}
    {entries : SinkTable S} (names : entries.map Prod.fst = p.made) (once : p.made.Nodup) :
    table ⟨p, entries, frames, waiting, moment⟩ = entries := by
  change p.made.filterMap (fun n => (entries.lookup n).map fun sink => (n, sink)) = entries
  rw [← names, List.filterMap_map]
  refine (List.filterMap_congr fun e mem => ?_).trans List.filterMap_some
  change (entries.lookup e.1).map (fun sink => (e.1, sink)) = some e
  rw [lookup_of_mem (names ▸ once) mem]
  rfl

/-- From some number of turns on, the turns of a descent make the steps of the walk, and come to
what they make or fail as the walk does. -/
theorem turns_start (S P L : Type) (ds : List Declaration) :
    ∃ enough, ∀ k ≥ enough, (turns ds k (start ds) : Plan S P L (Option (SinkTable S))) =
      some <$> (follow [] (walk ds).1.steps >>= fun table =>
        match (walk ds).2 with
        | some e => .fail e
        | none => pure table) := by
  obtain ⟨enough, steps, grown, made, turned⟩ := walk_goesAs (S := S) (P := P) (L := L) ds
  refine ⟨enough, fun k late => ?_⟩
  obtain ⟨more, rfl⟩ := Nat.exists_eq_add_of_le late
  refine (turned ([], []) [] rfl more).trans ?_
  have all : (walk ds).1.steps = steps := grown
  rw [all, map_bind]
  refine follow_bind_congr fun new names => ?_
  cases (walk ds).2 with
  | some e => rfl
  | none =>
    have named : new.map Prod.fst = (walk ds).1.made := names.trans made.symm
    have ended : table ⟨(walk ds).1, new, [], [], .onward⟩ = new :=
      table_eq named (walk_sound ds).1.madeOnce
    cases more <;> exact congrArg (fun table => pure (some table)) ended

/-- **The recursion over the declared sinks is in order and ends.** On every document whose entries
are taken for declarations, cyclic or not, a descent has ended after some number of turns, with the
plan of `resolve` up to the report at its end; whatever the backend, it is in order at every point
up to there, and so at every beginning and every end of a visit. -/
theorem visits_in_order {doc : Document.Table} {entries : List Document.Table}
    (present : Document.tableArray doc "sink" = .ok (some entries))
    (collected : Declaration.collect [] entries = .ok ds) :
    (∃ sinks : Plan S P L (SinkTable S),
      resolve doc = (do
        let table ← sinks
        Plan.report (sinkReport .debug "sinks resolved" [("count", .unsigned table.length)])
        return table) ∧
      ∃ enough, ∀ k ≥ enough, turns ds k (start ds) = some <$> sinks) ∧
    ∀ (b : Backend σ S P L) (s₀ s : σ) (r : Descent S), Reached b ds s₀ r s → r.InOrder ds := by
  refine ⟨⟨_, ?_, turns_start S P L ds⟩, fun b s₀ s r reached => reached.inOrder⟩
  rw [resolve, present]
  change (Plan.ofSetup (Declaration.collect [] entries) >>= _) = _
  rw [collected]
  change (follow [] (walk ds).1.steps >>= fun table => match (walk ds).2 with
    | some e => Plan.fail e
    | none => _) = _
  rw [bind_assoc]
  refine congrArg _ (funext fun table => ?_)
  cases (walk ds).2 <;> rfl

/-- Two fans that forward to each other: the visit that closes the circle begins when there are as
many visits under way as declarations, and there it ends. -/
theorem circle_of_two_ends :
    let fan (name target : String) : Document.Table :=
      [("name", .text name), ("type", .text "dist_sink_st"), ("sinks", .array [.text target])]
    let doc : Document.Table := [("sink", .array [.table (fan "x" "y"), .table (fan "y" "x")])]
    let ds : List Declaration := [⟨"x", .dist, fan "x" "y"⟩, ⟨"y", .dist, fan "y" "x"⟩]
    Document.tableArray doc "sink" = .ok (some [fan "x" "y", fan "y" "x"]) ∧
      Declaration.collect [] [fan "x" "y", fan "y" "x"] = .ok ds ∧
      (∃ sinks : Plan Journal.Item Journal.Item Journal.Item (SinkTable Journal.Item),
        resolve doc = (do
          let table ← sinks
          Plan.report (sinkReport .debug "sinks resolved" [("count", .unsigned table.length)])
          return table) ∧
        ∃ enough, ∀ k ≥ enough, turns ds k (start ds) = some <$> sinks) ∧
      ∃ r s, Reached (Journal.backend []) ds .empty r s ∧ r.moment = .enter "x" ∧
        r.frames.length = ds.length ∧ r.InOrder ds := by
  intro fan doc ds
  have present : Document.tableArray doc "sink" = .ok (some [fan "x" "y", fan "y" "x"]) := rfl
  have collected : Declaration.collect [] [fan "x" "y", fan "y" "x"] = .ok ds := rfl
  have keeps := visits_in_order (σ := Journal.State) (S := Journal.Item) (P := Journal.Item)
    (L := Journal.Item) present collected
  have first : Reached (Journal.backend []) ds .empty _ _ := Reached.start.turn rfl
  have last := (((first.turn rfl).turn rfl).turn rfl).turn rfl
  exact ⟨present, collected, keeps.1, _, _, last, rfl, rfl, keeps.2 _ _ _ _ last⟩

end Descent

end Sink

end LogTopology
