import LogTopology.Engine.Backend
import LogTopology.Logger.Declared
import LogTopology.Pool.Table
import LogTopology.Proofs.Logger.Declared
import LogTopology.Proofs.Plan.Ends
import LogTopology.Sink.Resolve
import Mathlib.Logic.Function.Basic
/-!
# The stages of a build in the engine

What each stage of a build does to the engine, however it ends. The sinks touch the surroundings and
the sinks and nothing else; the pools are added, and the one of the document becomes the one that
serves all; each logger is added and registered, and the registry is overwritten under its name. A
stage that fails keeps what it has done, and a logger whose pattern is refused stays unregistered.

Opening files is left to the disk: a sink may fail for any reason that the disk has.

The lemma of a pool stage is one law in two cases: the relation of the stage (`SharedSet`,
`PoolsAdded`) holds between the engines before and after it, or it has failed, and then no engine
would stand in that relation to the one before. So a stage that fails was bound to fail, whatever
was done before it.
-/

namespace LogTopology.Engine

open Plan

variable {b : Builder}

/-! ## Sinks -/

/-- The engine was changed in its surroundings and its sinks only. -/
structure SinksOnly (e e' : Engine) : Prop where
  loggers : e'.loggers = e.loggers
  pools : e'.pools = e.pools
  registry : e'.registry = e.registry
  shared : e'.shared = e.shared

theorem SinksOnly.refl (e : Engine) : SinksOnly e e :=
  ⟨rfl, rfl, rfl, rfl⟩

theorem SinksOnly.trans {e e' e'' : Engine} (first : SinksOnly e e') (second : SinksOnly e' e'') :
    SinksOnly e e'' :=
  ⟨second.loggers.trans first.loggers, second.pools.trans first.pools,
    second.registry.trans first.registry, second.shared.trans first.shared⟩

/-- Making a sink changes nothing but the surroundings and the sinks. -/
theorem sinksOnly_makeSink {e e' : Engine} {kind : Sink.Kind} {targets : List SinkRef}
    {sink : SinkRef} (made : e.makeSink kind targets = .ok (sink, e')) : SinksOnly e e' := by
  obtain ⟨found, -, made⟩ := Setup.bind_eq_ok.mp made
  cases found <;> cases made <;> exact ⟨rfl, rfl, rfl, rfl⟩

/-- Preparing a sink makes no sink, whatever becomes of its directory. -/
theorem prepare_ends (d : Sink.Declaration) (kind : Sink.Kind) :
    (Sink.prepare d kind : Plan SinkRef Nat Nat Unit).Ends backend b fun _ t =>
      SinksOnly b.engine t.engine ∧ t.made = b.made := by
  rw [Sink.prepare, ends_bind, ends_ofSetup]
  cases Document.optionalOr .flag d.table "create_parent_dir" false with
  | error e => exact ⟨.refl _, rfl⟩
  | ok asked =>
    cases asked with
    | false => exact ⟨.refl _, rfl⟩
    | true =>
      rw [afterwards]
      cases kind.directory? with
      | none => exact ⟨.refl _, rfl⟩
      | some path =>
        refine ends_ask.mpr ?_
        change SinksOnly b.engine (makeDirectory b.engine path).2 ∧ b.made = b.made
        rw [makeDirectory]
        rcases b.engine.world.disk.makeAll path with ⟨_ | fault, disk⟩ <;>
          exact ⟨⟨rfl, rfl, rfl, rfl⟩, rfl⟩

/-- Setting the level of a sink changes sinks only, and makes none. -/
theorem assignLevel_ends (d : Sink.Declaration) (sink : SinkRef) :
    (Sink.assignLevel d sink : Plan SinkRef Nat Nat Unit).Ends backend b fun _ t =>
      SinksOnly b.engine t.engine ∧ t.made = b.made := by
  rw [Sink.assignLevel, ends_bind, ends_ofSetup]
  rcases d.level with e | _ | level <;> exact ⟨⟨rfl, rfl, rfl, rfl⟩, rfl⟩

/-- A sink that is made stands last among those that the build has made. -/
theorem createSink_ends (name : String) (kind : Sink.Kind) (targets : List SinkRef) :
    (ask (.createSink name kind targets) : Plan SinkRef Nat Nat SinkRef).Ends backend b fun r t =>
      SinksOnly b.engine t.engine ∧ ∀ sink, r = .ok sink → t.made = b.made ++ [(name, sink)] := by
  rw [ends_ask]
  cases opened : b.engine.makeSink kind targets with
  | error e =>
    have answered : backend.perform (.createSink name kind targets) b = (.error e, b) := by
      change settleSetup b (b.engine.makeSink kind targets >>= _) = _
      rw [opened]
      rfl
    rw [answered]
    exact ⟨.refl _, fun _ same => absurd same Setup.error_ne_ok⟩
  | ok made =>
    have answered : backend.perform (.createSink name kind targets) b =
        (.ok made.1, ⟨made.2, b.made ++ [(name, made.1)]⟩) := by
      change settleSetup b (b.engine.makeSink kind targets >>= _) = _
      rw [opened]
      rfl
    rw [answered]
    refine ⟨sinksOnly_makeSink opened, ?_⟩
    rintro _ ⟨⟩
    rfl

/-- Making a sink changes sinks only, and the build knows the new one by its name. -/
theorem makeSink_ends (table : Sink.SinkTable SinkRef) (d : Sink.Declaration) (kind : Sink.Kind) :
    (Sink.make table d kind : Plan SinkRef Nat Nat SinkRef).Ends backend b fun r t =>
      SinksOnly b.engine t.engine ∧ ∀ sink, r = .ok sink → t.made = b.made ++ [(d.name, sink)] := by
  refine (prepare_ends d kind).bind (fun e t kept => ⟨kept.1, fun _ same => absurd same Setup.error_ne_ok⟩) ?_
  rintro ⟨⟩ t ⟨prepared, made⟩
  rw [← made]
  refine (createSink_ends d.name kind _).bind (fun e u kept => ?_) fun sink u kept => ?_
  · exact ⟨prepared.trans kept.1, fun _ same => absurd same Setup.error_ne_ok⟩
  have opened := prepared.trans kept.1
  refine (assignLevel_ends d sink).bind (fun e v kept' => ?_) fun _ v kept' => ?_
  · exact ⟨opened.trans kept'.1, fun _ same => absurd same Setup.error_ne_ok⟩
  · refine ends_bind.mpr ⟨opened.trans kept'.1, ?_⟩
    rintro _ ⟨⟩
    exact kept'.2.trans (kept.2 sink rfl)

/-- The table of sinks is the list of those that the build has made. -/
theorem follow_ends {table : Sink.SinkTable SinkRef} {steps : List Sink.Step}
    (made : b.made = table) :
    (Sink.follow table steps : Plan SinkRef Nat Nat (Sink.SinkTable SinkRef)).Ends backend b
      fun r t => SinksOnly b.engine t.engine ∧ ∀ sinks, r = .ok sinks → t.made = sinks := by
  induction steps generalizing table b with
  | nil =>
    refine ends_pure.mpr ⟨.refl _, ?_⟩
    rintro _ ⟨⟩
    exact made
  | cons step steps ih =>
    cases step with
    | enter name depth => exact ih made
    | make d kind =>
      have one : ((Sink.make table d kind).within (.sink d.name)).Ends backend b fun r t =>
          SinksOnly b.engine t.engine ∧ ∀ sink, r = .ok sink → t.made = table ++ [(d.name, sink)] := by
        rw [within, ends_mapError, ← made]
        refine (makeSink_ends b.made d kind).imp ?_
        rintro (e | sink) t ⟨kept, grown⟩
        · exact ⟨kept, fun _ same => absurd same Setup.error_ne_ok⟩
        · refine ⟨kept, ?_⟩
          rintro _ ⟨⟩
          exact grown sink rfl
      refine one.bind (fun e t kept => ⟨kept.1, fun _ same => absurd same Setup.error_ne_ok⟩) fun sink t kept => ?_
      exact (ih (kept.2 sink rfl)).imp fun r u rest => ⟨kept.1.trans rest.1, rest.2⟩

/-- The sinks of a document. -/
theorem resolve_ends (doc : Document.Table) (none : b.made = []) :
    (Sink.resolve doc : Plan SinkRef Nat Nat (Sink.SinkTable SinkRef)).Ends backend b fun r t =>
      SinksOnly b.engine t.engine ∧ ∀ sinks, r = .ok sinks → t.made = sinks := by
  have fails (e : SetupError) : SinksOnly b.engine b.engine ∧
      ∀ sinks, (.error e : Setup (Sink.SinkTable SinkRef)) = .ok sinks → b.made = sinks :=
    ⟨.refl _, fun _ same => absurd same Setup.error_ne_ok⟩
  rw [Sink.resolve, ends_bind, ends_ofSetup]
  rcases Document.tableArray doc "sink" with e | _ | entries
  · exact fails e
  · exact fails _
  rw [afterwards, ends_bind, ends_ofSetup]
  cases Sink.Declaration.collect [] entries with
  | error e => exact fails e
  | ok ds =>
    rw [afterwards]
    rcases Sink.walk ds with ⟨p, stop⟩
    refine (follow_ends none).bind (fun e t kept => ⟨kept.1, fun _ same => absurd same Setup.error_ne_ok⟩) ?_
    rintro table t ⟨kept, same⟩
    cases stop with
    | some e => exact ⟨kept, fun _ same => absurd same Setup.error_ne_ok⟩
    | none =>
      refine ends_bind.mpr ⟨kept, ?_⟩
      rintro _ ⟨⟩
      exact same table rfl

/-! ## Pools -/

open PoolTable (Made Makes Sized sizeOf_eq_ok)
open Document (entriesOf)

/-- A pool with room and workers is added under the next number. -/
theorem addPool_of_positive {size : PoolSize} (positive : size.Positive) (e : Engine) :
    e.addPool size = .ok (e.pools.length, { e with pools := e.pools ++ [.fresh size] }) := by
  obtain ⟨queue, threads⟩ := positive
  have given : ¬(size.queue = 0 || size.threads = 0) := by
    simp only [Bool.or_eq_true, decide_eq_true_eq]
    omega
  have made : (Pool.make size : Setup (Pool Job)) = .ok (.fresh size) := by
    rw [Pool.make, if_neg given]
  rw [addPool, made]
  rfl

/-- The pool of a document serves all from now on, if the document has one. -/
inductive SharedSet (doc : Document.Table) (e : Engine) : Engine → Prop where
  | kept (absent : Document.subTable doc "global_thread_pool" = .ok none) : SharedSet doc e e
  | replaced {t : Document.Table} {size : PoolSize}
      (present : Document.subTable doc "global_thread_pool" = .ok (some t)) (sized : Sized t size) :
      SharedSet doc e { e with
        pools := e.pools ++ [.fresh size]
        shared := some e.pools.length }

/-- Pools were made one after the other, each under the next number. -/
structure PoolsAdded (made : List (Made Nat)) (e e' : Engine) : Prop where
  engine : e' = { e with pools := e.pools ++ made.map fun m => .fresh m.size }
  numbered : made.map Made.pool = List.range' e.pools.length made.length

/-- All pools of a document are there. -/
structure PoolsReady (doc : Document.Table) (made : List (Made Nat)) (e e' : Engine) : Prop where
  listed : ∃ found, Document.tableArray doc "thread_pool" = .ok found
  makes : List.Forall₂ Makes (entriesOf doc "thread_pool") made
  distinct : (made.map Made.name).Nodup
  engine : ∃ mid, SharedSet doc e mid ∧ PoolsAdded made mid e'

/-- The loggers and the registry are as they were, and the build has made the same sinks. -/
structure SameLoggers (b t : Builder) : Prop where
  loggers : t.engine.loggers = b.engine.loggers
  registry : t.engine.registry = b.engine.registry
  made : t.made = b.made

theorem SameLoggers.refl (b : Builder) : SameLoggers b b :=
  ⟨rfl, rfl, rfl⟩

theorem SameLoggers.trans {b t u : Builder} (first : SameLoggers b t) (second : SameLoggers t u) :
    SameLoggers b u :=
  ⟨second.loggers.trans first.loggers, second.registry.trans first.registry,
    second.made.trans first.made⟩

/-- The shared pool is set just when the document's table of sizes can be read; the loggers are as
before in both cases. -/
theorem setShared_ends (doc : Document.Table) :
    (PoolTable.setShared doc : Plan SinkRef Nat Nat Unit).Ends backend b fun r t =>
      SameLoggers b t ∧ ((r = .ok () ∧ SharedSet doc b.engine t.engine) ∨
        (∃ err, r = .error err) ∧ ∀ e', ¬SharedSet doc b.engine e') := by
  rw [PoolTable.setShared, ends_bind, ends_ofSetup]
  cases section_ : Document.subTable doc "global_thread_pool" with
  | error err =>
    refine ⟨.refl b, .inr ⟨⟨err, rfl⟩, ?_⟩⟩
    rintro e' (⟨absent⟩ | ⟨present, -⟩)
    · cases section_.symm.trans absent
    · cases section_.symm.trans present
  | ok found =>
    cases found with
    | none => exact ⟨.refl b, .inl ⟨rfl, .kept section_⟩⟩
    | some t =>
      rw [afterwards, ends_bind, ends_ofSetup]
      cases read : PoolTable.sizeOf t "global_thread_pool" with
      | error err =>
        refine ⟨.refl b, .inr ⟨⟨err, rfl⟩, ?_⟩⟩
        rintro e' (⟨absent⟩ | ⟨present, sized⟩)
        · cases section_.symm.trans absent
        · cases section_.symm.trans present
          cases read.symm.trans (sizeOf_eq_ok.mpr sized)
      | ok size =>
        have sized := sizeOf_eq_ok.mp read
        have answered : backend.perform (.setSharedPool size) b =
            (.ok (), b.withEngine { b.engine with
              pools := b.engine.pools ++ [.fresh size]
              shared := some b.engine.pools.length }) := by
          change settleSetup b (b.engine.addPool size >>= _) = _
          rw [addPool_of_positive sized.positive]
          rfl
        rw [afterwards, ends_bind, ends_ask, answered]
        exact ⟨⟨rfl, rfl, rfl⟩, .inl ⟨rfl, .replaced section_ sized⟩⟩

/-- One more pool is added before the others. -/
theorem PoolsAdded.cons {m : Made Nat} {made : List (Made Nat)} {e e' : Engine}
    (number : m.pool = e.pools.length)
    (rest : PoolsAdded made { e with pools := e.pools ++ [.fresh m.size] } e') :
    PoolsAdded (m :: made) e e' := by
  obtain ⟨engine, numbered⟩ := rest
  refine ⟨?_, ?_⟩
  · rw [engine, List.append_assoc]
    rfl
  · rw [List.map_cons, numbered, number, List.length_cons, List.range'_succ, List.length_append]
    rfl

/-- What comes of making the pools that entries name: all of them are there beside the others, or
some entry has no name, no sizes or a name that is taken. -/
def PoolsMade (pools : PoolTable Nat) (entries : List Document.Table) (b : Builder)
    (r : Setup (PoolTable Nat)) (t : Builder) : Prop :=
  SameLoggers b t ∧
    ((∃ made, r = .ok (pools ++ made.map Made.entry) ∧ List.Forall₂ Makes entries made ∧
        ((pools ++ made.map Made.entry).map Prod.fst).Nodup ∧ PoolsAdded made b.engine t.engine) ∨
      (∃ err, r = .error err) ∧ ∀ made : List (Made Nat), List.Forall₂ Makes entries made →
        ¬((pools ++ made.map Made.entry).map Prod.fst).Nodup)

section Named

variable {pools : PoolTable Nat} {entry : Document.Table} {entries : List Document.Table}
  {r : Setup (PoolTable Nat)} {t : Builder}

/-- No entries make no pools. -/
theorem poolsMade_nil (distinct : (pools.map Prod.fst).Nodup) : PoolsMade pools [] b (.ok pools) b := by
  refine ⟨.refl b, .inl ⟨[], ?_, .nil, ?_, ?_, rfl⟩⟩
  · rw [List.map_nil, List.append_nil]
  · rw [List.map_nil, List.append_nil]
    exact distinct
  · rw [List.map_nil, List.append_nil]

/-- An entry that can make no pool, or only one whose name is taken, is at fault. -/
theorem poolsMade_of_fault (err : SetupError)
    (fault : ∀ m : Made Nat, Makes entry m → m.name ∈ pools.map Prod.fst) :
    PoolsMade pools (entry :: entries) b (.error err) b := by
  refine ⟨.refl b, .inr ⟨⟨err, rfl⟩, ?_⟩⟩
  rintro _ (_ | ⟨makes, -⟩) once
  rw [List.map_append, List.nodup_append] at once
  exact once.2.2 _ (fault _ makes) _ List.mem_cons_self rfl

/-- One pool more, before those of the other entries. -/
theorem PoolsMade.cons {m : Made Nat} (makes : Makes entry m)
    (number : m.pool = b.engine.pools.length)
    (rest : PoolsMade (pools ++ [m.entry]) entries
      (b.withEngine { b.engine with pools := b.engine.pools ++ [.fresh m.size] }) r t) :
    PoolsMade pools (entry :: entries) b r t := by
  have table (first : Made Nat) (made : List (Made Nat)) :
      pools ++ (first :: made).map Made.entry = pools ++ [first.entry] ++ made.map Made.entry := by
    rw [List.append_assoc]
    rfl
  obtain ⟨kept, ⟨made, rfl, rest, once, added⟩ | ⟨failed, fault⟩⟩ := rest
  · refine ⟨⟨kept.loggers, kept.registry, kept.made⟩, .inl ⟨m :: made, ?_, .cons makes rest, ?_,
      added.cons number⟩⟩
    · rw [table]
    · rw [table]
      exact once
  · refine ⟨⟨kept.loggers, kept.registry, kept.made⟩, .inr ⟨failed, ?_⟩⟩
    rintro _ (_ | ⟨here, rest⟩) once
    rename_i first made
    have same : first.name = m.name := Option.some.inj (here.name.symm.trans makes.name)
    refine fault made rest ?_
    rw [table, List.map_append, List.map_append] at once
    rw [List.map_append, List.map_append]
    have named : [m.entry].map Prod.fst = [first.entry].map Prod.fst := congrArg ([·]) same.symm
    rw [named]
    exact once

end Named

/-- A pool is made under the next number. -/
theorem perform_createPool {size : PoolSize} (positive : size.Positive) (name : String) :
    backend.perform (.createPool name size) b =
      (.ok b.engine.pools.length,
        b.withEngine { b.engine with pools := b.engine.pools ++ [.fresh size] }) := by
  change settleSetup b (b.engine.addPool size >>= _) = _
  rw [addPool_of_positive positive]
  rfl

/-- Making the pools that entries name, one after the other. -/
theorem makePools_ends {pools : PoolTable Nat} {entries : List Document.Table}
    (distinct : (pools.map Prod.fst).Nodup) :
    (PoolTable.make pools entries : Plan SinkRef Nat Nat (PoolTable Nat)).Ends backend b
      (PoolsMade pools entries b) := by
  induction entries generalizing pools b with
  | nil => exact ends_pure.mpr (poolsMade_nil distinct)
  | cons entry entries ih =>
    rw [PoolTable.make]
    cases named : Document.entryName? entry with
    | none =>
      refine ends_fail.mpr (poolsMade_of_fault _ fun m makes => ?_)
      cases named.symm.trans makes.name
    | some name =>
    dsimp only
    split
    · -- An earlier entry has made a pool of the name.
      rename_i taken
      refine ends_fail.mpr (poolsMade_of_fault _ fun m makes => ?_)
      cases named.symm.trans makes.name
      obtain ⟨pool, found⟩ := Option.isSome_iff_exists.mp taken
      exact List.mem_map.mpr ⟨_, mem_of_lookup found, rfl⟩
    rename_i free
    rw [ends_bind, ends_ofSetup]
    cases read : PoolTable.sizeOf entry s!"thread pool '{name}'" with
    | error err =>
      refine poolsMade_of_fault err fun m makes => ?_
      cases read.symm.trans (sizeOf_eq_ok.mpr makes.size)
    | ok size =>
      have sized := sizeOf_eq_ok.mp read
      have fresh : name ∉ pools.map Prod.fst := by
        intro mem
        obtain ⟨old, found⟩ := exists_lookup_of_mem_names mem
        exact free (by rw [found]; rfl)
      have makes : Makes entry (⟨name, size, b.engine.pools.length⟩ : Made Nat) := ⟨named, sized⟩
      rw [afterwards, ends_bind, ends_ask, perform_createPool sized.positive]
      dsimp only
      rw [afterwards, ends_bind, ends_report, afterwards]
      exact (ih (nodup_names_append distinct fresh b.engine.pools.length)).imp
        fun r t rest => .cons makes rfl rest

/-- The pools of a document are all there, or the document is at fault. -/
theorem poolsOfDocument_ends (doc : Document.Table) :
    (PoolTable.ofDocument doc : Plan SinkRef Nat Nat (PoolTable Nat)).Ends backend b fun r t =>
      SameLoggers b t ∧ ((∃ made, r = .ok (made.map Made.entry) ∧
          PoolsReady doc made b.engine t.engine) ∨
        (∃ err, r = .error err) ∧ ∀ made e', ¬PoolsReady doc made b.engine e') := by
  refine (setShared_ends doc).bind ?_ ?_
  · rintro err t ⟨kept, ⟨⟨⟩, -⟩ | ⟨-, fault⟩⟩
    refine ⟨kept, .inr ⟨⟨err, rfl⟩, ?_⟩⟩
    rintro made e' ⟨-, -, -, mid, shared, -⟩
    exact fault mid shared
  rintro ⟨⟩ t ⟨kept, ⟨-, shared⟩ | ⟨⟨_, ⟨⟩⟩, -⟩⟩
  rw [ends_bind, ends_ofSetup]
  cases listed : Document.tableArray doc "thread_pool" with
  | error err =>
    refine ⟨kept, .inr ⟨⟨err, rfl⟩, ?_⟩⟩
    rintro made e' ⟨⟨found, same⟩, -, -, -⟩
    cases listed.symm.trans same
  | ok found =>
    cases found with
    | none =>
      refine ⟨kept, .inl ⟨[], rfl, ⟨_, listed⟩, ?_, .nil, t.engine, shared, ?_, rfl⟩⟩
      · rw [Document.entriesOf_eq_nil listed]
        exact .nil
      · rw [List.map_nil, List.append_nil]
        rfl
    | some entries =>
      have all := Document.entriesOf_eq listed
      have names (made : List (Made Nat)) :
          (([] : PoolTable Nat) ++ made.map Made.entry).map Prod.fst = made.map Made.name :=
        List.map_map
      have noPools : (([] : PoolTable Nat).map Prod.fst).Nodup := .nil
      rw [afterwards]
      refine (makePools_ends noPools).imp ?_
      rintro r u ⟨kept', ⟨made, rfl, makes, once, added⟩ | ⟨failed, fault⟩⟩
      · refine ⟨kept.trans kept', .inl ⟨made, rfl, ⟨_, listed⟩, ?_, ?_, t.engine, shared, added⟩⟩
        · rw [all]
          exact makes
        · rw [← names]
          exact once
      · refine ⟨kept.trans kept', .inr ⟨failed, ?_⟩⟩
        rintro made e' ⟨-, makes, once, -⟩
        rw [all] at makes
        rw [← names] at once
        exact fault made makes once

end LogTopology.Engine
