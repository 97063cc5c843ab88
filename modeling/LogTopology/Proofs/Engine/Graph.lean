import LogTopology.Proofs.Engine.Stages
import LogTopology.Proofs.Sink.Resolution
/-!
# The sinks of a build as a graph

A build numbers its sinks in the order in which it makes them, whatever it is asked to do besides
(`SinksNumbered.run`), so two names never share a sink. The sinks of a document are then linked as
it declares them: a sink holds the very sinks that the names of its list stand for, in their order
and with repetitions (`resolve_ends_linked`).

From both together the names come back. A search by number through all sinks of the build finds one
sink at most, and so the names that a sink forwards to are those of its list
(`forwardNames_eq`).

Numbering is kept by every single call (`perform`), so it needs no look into the plan of a build.
Linking is an induction on the steps of the walk (`follow_ends_linked`): a sink is made when the
table has all of its targets, and what is added behind them does not change what is found under
their names.

Whether the sinks can be opened is left to the disk, and what the sinks write is not told here.
-/

namespace LogTopology.Engine

open Plan
open Sink (Declaration Kind SinkTable Step makes targetsOf targetsOf_eq map_lookup_append
  Decodable)

variable {b : Builder} {ds : List Declaration} {table : SinkTable SinkRef}

/-! ## Numbers -/

/-- The sinks of a build are those that the engine has from the given number on, in order. -/
structure SinksNumbered (first : Nat) (b : Builder) : Prop where
  ids : b.made.map (fun m => m.2.id) = List.range' first b.made.length
  count : b.engine.sinks.length = first + b.made.length

/-- A build that has made nothing yet. -/
theorem sinksNumbered_start (e : Engine) : SinksNumbered e.sinks.length ⟨e, []⟩ :=
  ⟨rfl, rfl⟩

/-- Making a leaf gives none just when the kind is that of a fan. -/
theorem leafMake_eq_none_iff {w : World} {kind : Kind} {found : Option (Leaf × World)}
    (made : Leaf.make w kind = .ok found) : found = none ↔ kind.family = .dist := by
  have leaf {l : Leaf × World} (same : found = some l) (other : kind.family ≠ .dist) :
      found = none ↔ kind.family = .dist := by
    rw [same]
    exact ⟨fun none => absurd none (Option.some_ne_none l), fun family => absurd family other⟩
  cases kind with
  | dist targets =>
    cases made
    exact ⟨fun _ => rfl, fun _ => rfl⟩
  | basicFile path truncate =>
    obtain ⟨opened, -, made⟩ := Setup.bind_eq_ok.mp made
    cases made
    exact leaf rfl Sink.Family.noConfusion
  | rotatingFile path maxSize maxFiles =>
    obtain ⟨opened, -, made⟩ := Setup.bind_eq_ok.mp made
    cases made
    exact leaf rfl Sink.Family.noConfusion
  | dailyFile path hour minute =>
    obtain ⟨opened, -, made⟩ := Setup.bind_eq_ok.mp made
    cases made
    exact leaf rfl Sink.Family.noConfusion
  | _ =>
    cases made
    exact leaf rfl Sink.Family.noConfusion

/-- What is made gets the next number, and holds the given targets if it is a fan. -/
theorem makeSink_eq_ok {e e' : Engine} {kind : Kind} {targets : List SinkRef} {sink : SinkRef}
    (made : e.makeSink kind targets = .ok (sink, e')) :
    sink.id = e.sinks.length ∧ e'.sinks.length = e.sinks.length + 1 ∧
      sink.targets = if kind.family = .dist then targets else [] := by
  obtain ⟨found, opened, made⟩ := Setup.bind_eq_ok.mp made
  have fan := leafMake_eq_none_iff opened
  cases found with
  | none =>
    cases made
    refine ⟨rfl, List.length_append, ?_⟩
    rw [if_pos (fan.mp rfl)]
    rfl
  | some leaf =>
    cases made
    refine ⟨rfl, List.length_append, ?_⟩
    rw [if_neg fun family => Option.some_ne_none _ (fan.mpr family)]
    rfl

/-- Adding a pool makes no sink. -/
theorem sinks_addPool {e e' : Engine} {size : PoolSize} {pool : Nat}
    (added : e.addPool size = .ok (pool, e')) : e'.sinks = e.sinks := by
  obtain ⟨p, -, added⟩ := Setup.bind_eq_ok.mp added
  cases added
  rfl

/-- Finding out how a logger delivers makes no sink, at most a pool. -/
theorem sinks_dispatchOf {e e' : Engine} {mode : LoggerMode Nat} {dispatch : Dispatch}
    (found : dispatchOf e mode = .ok (dispatch, e')) : e'.sinks = e.sinks := by
  rcases mode with _ | ⟨_ | pool, policy⟩
  · cases found
    rfl
  · obtain ⟨⟨pool, shared⟩, serves, found⟩ := Setup.bind_eq_ok.mp found
    cases found
    rw [sharedPool] at serves
    cases standing : e.shared with
    | some pool =>
      rw [standing] at serves
      cases serves
      rfl
    | none =>
      rw [standing] at serves
      obtain ⟨⟨pool, added⟩, made, serves⟩ := Setup.bind_eq_ok.mp serves
      cases serves
      have same : added.sinks = e.sinks := sinks_addPool made
      exact same
  · cases found
    rfl

namespace SinksNumbered

variable {first : Nat}

/-- A change of the engine that makes no sink keeps the numbers. -/
theorem withEngine (numbered : SinksNumbered first b) {e : Engine}
    (same : e.sinks.length = b.engine.sinks.length) : SinksNumbered first (b.withEngine e) :=
  ⟨numbered.ids, same.trans numbered.count⟩

/-- One sink more. -/
theorem snoc (numbered : SinksNumbered first b) {name : String} {kind : Kind}
    {targets : List SinkRef} {sink : SinkRef} {e : Engine}
    (made : b.engine.makeSink kind targets = .ok (sink, e)) :
    SinksNumbered first ⟨e, b.made ++ [(name, sink)]⟩ := by
  obtain ⟨number, more, -⟩ := makeSink_eq_ok made
  constructor
  · rw [List.map_append, numbered.ids, List.length_append, List.length_singleton,
      List.range'_concat, Nat.one_mul, ← numbered.count, ← number]
    rfl
  · rw [more, numbered.count, List.length_append]
    rfl

/-- An answer that leaves the builder alone, or changes its engine only and not its sinks. -/
theorem settle {β : Type} (numbered : SinksNumbered first b) {s : Setup (β × Builder)}
    (keeps : ∀ x t, s = .ok (x, t) → SinksNumbered first t) :
    SinksNumbered first (settleSetup b s).2 := by
  cases s with
  | error e => exact numbered
  | ok answered => exact keeps answered.1 answered.2 rfl

/-- No call makes a sink without the next number, or takes one away. -/
theorem perform {β : Type} (numbered : SinksNumbered first b) (c : Call SinkRef Nat Nat β) :
    SinksNumbered first (backend.perform c b).2 := by
  -- Only `createSink` adds a sink; the other calls leave the number of sinks as it is.
  cases c with
  | createDirectory path =>
    refine numbered.withEngine (e := (makeDirectory b.engine path).2) ?_
    rw [makeDirectory]
    rcases b.engine.world.disk.makeAll path with ⟨_ | fault, disk⟩ <;> rfl
  | createSink name kind targets =>
    refine numbered.settle fun sink t answered => ?_
    obtain ⟨⟨made, e⟩, opened, answered⟩ := Setup.bind_eq_ok.mp answered
    cases answered
    exact numbered.snoc opened
  | setSinkLevel sink level => exact numbered.withEngine (List.length_modify ..)
  | setSharedPool size =>
    refine numbered.settle fun _ t answered => ?_
    obtain ⟨⟨pool, e⟩, added, answered⟩ := Setup.bind_eq_ok.mp answered
    cases answered
    have same : e.sinks = b.engine.sinks := sinks_addPool added
    exact numbered.withEngine (congrArg List.length same)
  | createPool name size =>
    refine numbered.settle fun _ t answered => ?_
    obtain ⟨⟨pool, e⟩, added, answered⟩ := Setup.bind_eq_ok.mp answered
    cases answered
    have same : e.sinks = b.engine.sinks := sinks_addPool added
    exact numbered.withEngine (congrArg List.length same)
  | createLogger name sinks mode =>
    refine numbered.settle fun _ t answered => ?_
    obtain ⟨⟨dispatch, e⟩, found, answered⟩ := Setup.bind_eq_ok.mp answered
    cases answered
    have same : e.sinks = b.engine.sinks := sinks_dispatchOf found
    exact numbered.withEngine (congrArg List.length same)
  | setLoggerLevel logger level => exact numbered.withEngine rfl
  | setPattern logger pattern =>
    refine numbered.settle fun _ t answered => ?_
    obtain ⟨p, -, answered⟩ := Setup.bind_eq_ok.mp answered
    cases answered
    exact numbered.withEngine rfl
  | register logger =>
    refine numbered.withEngine ?_
    rw [Engine.register]
    cases b.engine.loggers[logger]? with
    | none => rfl
    | some l => rfl

/-- A run of any plan goes on numbering the sinks, however it ends. -/
theorem run {α : Type} (numbered : SinksNumbered first b) (p : Plan SinkRef Nat Nat α) :
    SinksNumbered first (p.run backend b).state := by
  induction p generalizing b with
  | done a => exact numbered
  | fail e => exact numbered
  | note e next ih => exact ih numbered
  | call c wrap resume ih =>
    have after := numbered.perform c
    rw [Plan.run]
    rcases answered : backend.perform c b with ⟨e | x, t⟩
    · rw [answered] at after
      exact after
    · rw [answered] at after
      exact ih x after

/-- A sink of the build is found by its number. -/
theorem find?_id (numbered : SinksNumbered first b) {m : String × SinkRef} (mem : m ∈ b.made) :
    (b.made.find? fun m' => m'.2.id = m.2.id) = some m := by
  have distinct : (b.made.map fun m => m.2.id).Nodup := by
    rw [numbered.ids]
    exact List.nodup_range'
  have there : (b.made.find? fun m' => m'.2.id = m.2.id).isSome :=
    List.find?_isSome.mpr ⟨m, mem, decide_eq_true rfl⟩
  obtain ⟨m', found⟩ := Option.isSome_iff_exists.mp there
  have same : m'.2.id = m.2.id := by simpa using List.find?_some found
  rw [found, List.inj_on_of_nodup_map distinct (List.mem_of_find?_eq_some found) mem same]

end SinksNumbered

/-! ## Links -/

/-- The sinks of a table hold the sinks that the declarations link them to. -/
structure Linked (ds : List Declaration) (table : SinkTable SinkRef) : Prop where
  declared : ∀ n, n ∈ table.map Prod.fst ↔ n ∈ ds.map Declaration.name
  once : (table.map Prod.fst).Nodup
  targets : ∀ m ∈ table, m.2.targets.map some = (targetsOf ds m.1).map fun t => table.lookup t

/-- A sink that was made holds the sinks that it was given if it is a fan, and none if it is a leaf.
-/
theorem createSink_ends_targets (name : String) (kind : Kind) (targets : List SinkRef) :
    (ask (.createSink name kind targets) : Plan SinkRef Nat Nat SinkRef).Ends backend b fun r _ =>
      ∀ sink, r = .ok sink → sink.targets = if kind.family = .dist then targets else [] := by
  rw [ends_ask]
  change ∀ sink, (settleSetup b (b.engine.makeSink kind targets >>= _)).1 = .ok sink → _
  intro sink arrived
  cases opened : b.engine.makeSink kind targets with
  | error e =>
    rw [opened] at arrived
    exact absurd arrived Setup.error_ne_ok
  | ok made =>
    rw [opened] at arrived
    cases arrived
    exact (makeSink_eq_ok opened).2.2

/-- A sink that is made holds the sinks that the table has for its targets. -/
theorem make_ends_targets (table : SinkTable SinkRef) (d : Declaration) (kind : Kind) :
    (Sink.make table d kind : Plan SinkRef Nat Nat SinkRef).Ends backend b fun r _ =>
      ∀ sink, r = .ok sink → sink.targets = kind.targets.filterMap fun t => table.lookup t := by
  -- A kind that is no fan has no targets to look up.
  have held (found : List SinkRef) (same : found = kind.targets.filterMap fun t => table.lookup t) :
      (if kind.family = .dist then found else []) =
        kind.targets.filterMap fun t => table.lookup t := by
    cases kind with
    | dist targets => exact same
    | _ => rfl
  refine (prepare_ends d kind).bind (fun e t _ _ same => absurd same Setup.error_ne_ok) ?_
  rintro ⟨⟩ t -
  refine (createSink_ends_targets d.name kind _).bind
    (fun e t _ _ same => absurd same Setup.error_ne_ok) fun sink u made => ?_
  refine (assignLevel_ends d sink).bind (fun e t _ _ same => absurd same Setup.error_ne_ok) ?_
  rintro ⟨⟩ v -
  refine ends_bind.mpr ?_
  rintro _ ⟨⟩
  rw [made sink rfl]
  exact held _ rfl

/-- Following steps that make declared sinks after their targets: the table grows by them, and each
holds the sinks that the table then has for its targets. -/
theorem follow_ends_linked {steps : List Step}
    (decoded : ∀ m ∈ makes steps, Declaration.find? ds m.1.name = some m.1 ∧
      Kind.decode m.1.family m.1.table = .ok m.2)
    (known : ∀ before m after, makes steps = before ++ m :: after →
      ∀ t ∈ m.2.targets, t ∈ table.map Prod.fst ++ before.map fun m => m.1.name) :
    (Sink.follow table steps : Plan SinkRef Nat Nat (SinkTable SinkRef)).Ends backend b fun r _ =>
      ∀ final, r = .ok final → ∃ new, final = table ++ new ∧
        new.map Prod.fst = (makes steps).map (fun m => m.1.name) ∧
        ∀ m ∈ new, m.2.targets.map some = (targetsOf ds m.1).map fun t => final.lookup t := by
  induction steps generalizing table b with
  | nil =>
    rintro _ ⟨⟩
    refine ⟨[], (List.append_nil _).symm, rfl, fun m mem => ?_⟩
    cases mem
  | cons step steps ih =>
    cases step with
    | enter name depth => exact ih decoded known
    | make d kind =>
      obtain ⟨found, kindOf⟩ := decoded (d, kind) List.mem_cons_self
      have one : ((Sink.make table d kind).within (.sink d.name)).Ends backend b fun r _ =>
          ∀ sink, r = .ok sink → sink.targets = kind.targets.filterMap fun t => table.lookup t := by
        rw [within, ends_mapError]
        refine (make_ends_targets table d kind).imp fun r t made sink arrived => made sink ?_
        exact Setup.within_eq_ok.mp arrived
      refine one.bind (fun e t _ _ same => absurd same Setup.error_ne_ok) fun sink t made => ?_
      have knownAfter : ∀ before m after, makes steps = before ++ m :: after →
          ∀ t ∈ m.2.targets, t ∈ (table ++ [(d.name, sink)]).map Prod.fst ++
            before.map fun m => m.1.name := by
        intro before m after split t mem
        have there := known ((d, kind) :: before) m after (congrArg ((d, kind) :: ·) split) t mem
        simpa using there
      refine (ih (fun m mem => decoded m (List.mem_cons_of_mem _ mem)) knownAfter).imp ?_
      intro r u rest final arrived
      obtain ⟨new, rfl, names, linked⟩ := rest final arrived
      refine ⟨(d.name, sink) :: new, List.append_assoc .., congrArg (d.name :: ·) names, ?_⟩
      intro m mem
      rcases List.mem_cons.mp mem with rfl | mem
      · -- The targets were in the table before the sink, so what is added later does not hide them.
        rw [targetsOf_eq found kindOf, made sink rfl, List.append_assoc]
        refine (map_lookup_append fun t target => ?_).symm
        simpa using known [] (d, kind) (makes steps) rfl t target
      · exact linked m mem

/-- The sinks that the resolution of a document ends with are linked as its entries declare. -/
theorem resolve_ends_linked (doc : Document.Table) :
    (Sink.resolve doc : Plan SinkRef Nat Nat (SinkTable SinkRef)).Ends backend b fun r _ =>
      ∀ table, r = .ok table → ∃ entries ds, Document.tableArray doc "sink" = .ok (some entries) ∧
        Declaration.collect [] entries = .ok ds ∧ Decodable ds ∧ Linked ds table := by
  rw [Sink.resolve, ends_bind, ends_ofSetup]
  rcases listed : Document.tableArray doc "sink" with e | _ | entries
  · exact fun _ same => absurd same Setup.error_ne_ok
  · exact fun _ same => absurd same Setup.error_ne_ok
  rw [afterwards, ends_bind, ends_ofSetup]
  cases collected : Declaration.collect [] entries with
  | error e => exact fun _ same => absurd same Setup.error_ne_ok
  | ok ds =>
  have distinct : (ds.map Declaration.name).Nodup := Sink.collect_distinct .nil collected
  have outcome := Sink.walk_outcome ds
  rw [afterwards]
  generalize Sink.walk ds = visited at outcome ⊢
  rcases visited with ⟨p, _ | e⟩
  · obtain ⟨sound, -, order⟩ := outcome
    have known : ∀ before m after, makes p.steps = before ++ m :: after → ∀ t ∈ m.2.targets,
        t ∈ ([] : SinkTable SinkRef).map Prod.fst ++ before.map fun m => m.1.name :=
      fun _ _ _ split _ target => sound.targets_before (order.targetsFirst .nil) split target
    refine (follow_ends_linked sound.makesDecoded known).bind
      (fun e t _ _ same => absurd same Setup.error_ne_ok) fun table t followed => ?_
    refine ends_bind.mpr ?_
    rintro _ ⟨⟩
    obtain ⟨new, same, names, linked⟩ := followed table rfl
    rw [List.nil_append] at same
    subst same
    have madeNames : table.map Prod.fst = p.made := names.trans sound.makesMade
    refine ⟨entries, ds, rfl, collected, fun d mem => ?_, fun n => ?_, ?_, linked⟩
    · -- A declared sink was made, and what was made had been decoded.
      have made : d.name ∈ p.made := order.mem_of_root _ (List.mem_map_of_mem mem)
      rw [← sound.makesMade] at made
      obtain ⟨m, here, name⟩ := List.mem_map.mp made
      obtain ⟨found, kindOf⟩ := sound.makesDecoded m here
      rw [name, Sink.find?_of_mem distinct mem] at found
      cases found
      exact ⟨m.2, kindOf⟩
    · rw [madeNames]
      exact ⟨sound.madeDeclared n, order.mem_of_root n⟩
    · rw [madeNames]
      exact sound.madeOnce
  · -- A walk that stopped ends in its error, whatever was made before.
    have followed : (Sink.follow [] p.steps : Plan SinkRef Nat Nat (SinkTable SinkRef)).Ends backend
        b fun _ _ => True := trivial
    refine followed.bind (fun e t _ _ same => absurd same Setup.error_ne_ok) fun table t _ => ?_
    exact fun _ same => absurd same Setup.error_ne_ok

/-! ## Names -/

/-- Where sinks are what a table has for names, these names come back. -/
theorem filterMap_find?_id (numbered : SinksNumbered first b) {targets : List SinkRef}
    {names : List String} (held : targets.map some = names.map fun t => b.made.lookup t) :
    (targets.filterMap fun target =>
      (b.made.find? fun m => m.2.id = target.id).map Prod.fst) = names := by
  induction names generalizing targets with
  | nil =>
    rw [List.map_eq_nil_iff.mp held]
    rfl
  | cons name names ih =>
    cases targets with
    | nil => cases held
    | cons target targets =>
      injection held with here rest
      have found := numbered.find?_id (mem_of_lookup here.symm)
      rw [List.filterMap_cons, found, ih rest]
      rfl

/-- The names that a sink forwards to are those of its list. -/
theorem forwardNames_eq (numbered : SinksNumbered first b) (linked : Linked ds b.made)
    (n : String) : b.forwardNames n = targetsOf ds n := by
  rw [Builder.forwardNames, Builder.sink?]
  cases found : b.made.lookup n with
  | none =>
    cases declared : Declaration.find? ds n with
    | none =>
      rw [targetsOf, declared]
      rfl
    | some d =>
      obtain ⟨mem, rfl⟩ := Sink.find?_eq_some declared
      obtain ⟨sink, there⟩ := exists_lookup_of_mem_names
        ((linked.declared d.name).mpr (List.mem_map_of_mem mem))
      cases found.symm.trans there
  | some sink => exact filterMap_find?_id numbered (linked.targets _ (mem_of_lookup found))

end LogTopology.Engine
