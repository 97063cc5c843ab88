import LogTopology.Proofs.Build.Document
import LogTopology.Proofs.Engine.Registering
/-!
# The registry after a build

A build in the engine, from any prior content and on any disk. Before the first logger is reached
nothing is registered. From there on the registry is overwritten entry by entry, up to the first
entry that makes no logger, and what was registered before stays. Each of these loggers is the one
that its entry declares: with the sinks that this build has made, the pool that it has made for a
name, and else the pool that serves all, which is the document's own if it has one.

The loggers that were there before keep their numbers and are not changed, whether or not the
registry still finds them.

The stages are joined as their plan joins them: `Registers` holds of the loggers from the state that
the pools have left, and it is carried back over the earlier stages, none of which touches the
registry (`enrolled_of_registers`). Whether the first logger is reached is decided by the document
alone, apart from the sinks, so of an engine that was used before only the surroundings matter.
-/

namespace LogTopology.Build

open Document (entriesOf)
open Engine (Builder SinksOnly SameLoggers SharedSet PoolsAdded PoolsReady Grows Declared Makeable
  Registers enrol)
open PatternTable (lastValue?)
open PoolTable (Made Makes Sized)
open Plan

variable {doc : Document.Table} {b : Builder}

/-- What the entry of a logger means in a build that has made these sinks and pools. -/
def Meaning (doc : Document.Table) (sinks : Sink.SinkTable SinkRef) (pools : List (Made Nat))
    (globalPattern : Option String) : Document.Table → Logger.Order SinkRef Nat → Prop :=
  Logger.Means sinks (lastValue? (entriesOf doc "pattern")) (pools.map Made.entry) globalPattern

/-! ## The stages after the sinks -/

/-- The patterns of a document leave the engine alone. -/
theorem patterns_end (doc : Document.Table) :
    (PatternTable.ofDocument doc : Plan SinkRef Nat Nat PatternTable).Ends Engine.backend b
      fun r t => t = b ∧ ((∃ patterns, r = .ok patterns ∧ PatternTable.Declared doc ∧
          patterns.get? = lastValue? (entriesOf doc "pattern")) ∨
        (∃ err, r = .error err) ∧ ¬PatternTable.Declared doc) := by
  obtain ⟨yields, same⟩ :=
    (PatternTable.ofDocument_obeys ⟨fun _ _ => False⟩ doc []).run_of_no_call Engine.backend b
  obtain ⟨-, ⟨patterns, arrived, declared, values⟩ | failed⟩ := PatternTable.ofDocument_yields yields
  · exact ⟨same, .inl ⟨patterns, arrived, declared, funext values⟩⟩
  · exact ⟨same, .inr failed⟩

/-- The loggers of a document, once it is known to have some. -/
theorem loggers_end {env : Logger.Surroundings SinkRef Nat} {entries : List Document.Table}
    (listed : Document.tableArray doc "logger" = .ok (some entries)) :
    (Logger.ofDocument env doc : Plan SinkRef Nat Nat Nat).Ends Engine.backend b fun r t =>
      ∃ taken later loggers, Registers (Logger.Means env.sinks env.patterns.get? env.pools
        env.globalPattern) b entries (r.map fun _ => ()) t taken later loggers := by
  rw [Logger.ofDocument, ends_bind, ends_ofSetup, listed, afterwards]
  exact (Engine.registerAll_ends env entries).bind (fun err t reached => reached)
    fun _ t reached => reached

/-- The stages of a document after its sinks, in the engine: the first logger is reached in some
state, or nothing was registered because a stage before it is at fault. -/
theorem afterSinks_ends (doc : Document.Table) (b : Builder) :
    (afterSinks doc b.made : Plan SinkRef Nat Nat Unit).Ends Engine.backend b fun r t =>
      (∃ globalPattern entries pools mid, PatternTable.Declared doc ∧
        PoolsReady doc pools b.engine mid.engine ∧ Ready doc globalPattern entries ∧
        SameLoggers b mid ∧ ∃ taken later loggers,
          Registers (Meaning doc b.made pools globalPattern) mid entries r t taken later loggers) ∨
      ((∃ err, r = .error err) ∧ SameLoggers b t ∧ ¬(PatternTable.Declared doc ∧
        (∃ pools e', PoolsReady doc pools b.engine e') ∧
          ∃ globalPattern entries, Ready doc globalPattern entries)) := by
  -- Stage by stage: a stage that fails finds a fault that none of the others can make good.
  refine (patterns_end doc).bind ?_ ?_
  · rintro err t ⟨rfl, ⟨_, ⟨⟩, -⟩ | ⟨-, undeclared⟩⟩
    exact .inr ⟨⟨err, rfl⟩, .refl t, fun all => undeclared all.1⟩
  rintro patterns t ⟨rfl, ⟨_, ⟨⟩, declared, values⟩ | ⟨⟨_, ⟨⟩⟩, -⟩⟩
  refine (Engine.poolsOfDocument_ends doc).bind ?_ ?_
  · rintro err u ⟨kept, ⟨_, ⟨⟩, -⟩ | ⟨-, fault⟩⟩
    refine .inr ⟨⟨err, rfl⟩, kept, ?_⟩
    rintro ⟨-, ⟨pools, e', ready⟩, -⟩
    exact fault pools e' ready
  rintro _ u ⟨kept, ⟨pools, ⟨⟩, poolsReady⟩ | ⟨⟨_, ⟨⟩⟩, -⟩⟩
  rw [ends_bind, ends_ofSetup]
  cases global : Document.optional .string doc "global_pattern" with
  | error err =>
    refine .inr ⟨⟨err, rfl⟩, kept, ?_⟩
    rintro ⟨-, -, globalPattern, entries, ready⟩
    cases global.symm.trans ready.global
  | ok globalPattern =>
  rw [afterwards]
  rcases listed : Document.tableArray doc "logger" with err | _ | entries
  · rw [ends_bind, Logger.ofDocument, ends_bind, ends_ofSetup, listed]
    refine .inr ⟨⟨err, rfl⟩, kept, ?_⟩
    rintro ⟨-, -, _, entries, ready⟩
    cases listed.symm.trans ready.loggers
  · rw [ends_bind, Logger.ofDocument, ends_bind, ends_ofSetup, listed]
    refine .inr ⟨⟨_, rfl⟩, kept, ?_⟩
    rintro ⟨-, -, _, entries, ready⟩
    cases listed.symm.trans ready.loggers
  · rw [ends_bind]
    refine (loggers_end listed).imp ?_
    rintro (err | n) v ⟨taken, later, loggers, registers⟩ <;> dsimp only at registers <;>
      rw [values] at registers <;>
      exact .inl ⟨globalPattern, entries, pools, u, declared, poolsReady, ⟨global, listed⟩, kept,
        taken, later, loggers, registers⟩

/-! ## The whole build -/

/-- The stages before the first logger arrive: the sinks on this engine, the others by themselves. -/
structure Reaches (doc : Document.Table) (e : Engine) : Prop where
  sinks : ∃ sinks, ((Sink.resolve doc).run Engine.backend ⟨e, []⟩).result = .ok sinks
  patterns : PatternTable.Declared doc
  pools : ∃ pools e', PoolsReady doc pools e e'
  loggers : ∃ globalPattern entries, Ready doc globalPattern entries

/-- The pools of a build in the engine after it: one for each entry, under its name, with a number of
its own, and nothing has happened to it. -/
structure PoolsStand (doc : Document.Table) (e e' : Engine) (pools : List (Made Nat)) : Prop where
  makes : List.Forall₂ Makes (entriesOf doc "thread_pool") pools
  names : (pools.map Made.name).Nodup
  numbers : (pools.map Made.pool).Nodup
  new : ∀ m ∈ pools, e.pools.length ≤ m.pool
  there : ∀ m ∈ pools, e'.pools[m.pool]? = some (.fresh m.size)

/-- The pool that serves all after a build: the document's own, or else the one that served before,
or else one of the standard size if some logger has asked for it. -/
structure SharedStands (doc : Document.Table) (e e' : Engine) : Prop where
  own : ∀ t, Document.subTable doc "global_thread_pool" = .ok (some t) →
    ∃ size pool, Sized t size ∧ e'.shared = some pool ∧ e.pools.length ≤ pool ∧
      e'.pools[pool]? = some (.fresh size)
  prior : Document.subTable doc "global_thread_pool" = .ok none →
    e'.shared = e.shared ∨ e.shared = none ∧ ∃ pool, e'.shared = some pool ∧
      e.pools.length ≤ pool ∧ e'.pools[pool]? = some (.fresh Pool.standardSize)

/-- What a build has registered once its first logger was reached: the loggers of the entries up to
the first one that makes none. -/
structure Enrolled (doc : Document.Table) (e : Engine) (r : Setup Unit) (b : Builder)
    (globalPattern : Option String) (pools : List (Made Nat)) (taken later : List Document.Table)
    (loggers : List (String × Nat)) : Prop where
  ready : Ready doc globalPattern (taken ++ later)
  /-- The sinks that loggers refer to are those that this build has made, by name. -/
  sinks : ((Sink.resolve doc).run Engine.backend ⟨e, []⟩).result = .ok b.made
  registry : b.engine.find? = enrol e.find? loggers
  declared : List.Forall₂ (Declared (Meaning doc b.made pools globalPattern) b.engine) taken loggers
  /-- The loggers are new, and have numbers in the order of their entries. -/
  numbered : loggers.map Prod.snd = List.range' e.loggers.length loggers.length
  kept : e.loggers <+: b.engine.loggers
  poolsStand : PoolsStand doc e b.engine pools
  sharedStands : SharedStands doc e b.engine
  ends : (r = .ok () ∧ later = []) ∨ (∃ err, r = .error err) ∧
    ∃ failing rest, later = failing :: rest ∧ ¬Makeable (Meaning doc b.made pools globalPattern) failing

section Standing

variable {pools : List (Made Nat)} {e e₁ e₂ e' : Engine}

/-- What happens after the pools were made leaves them as they are. -/
theorem poolsStand_of_ready (sinks : SinksOnly e e₁) (ready : PoolsReady doc pools e₁ e₂)
    (grows : Grows e₂ e') : PoolsStand doc e e' pools := by
  obtain ⟨-, makes, names, mid, shared, engine, numbered⟩ := ready
  have grown : e.pools.length ≤ mid.pools.length := by
    rw [← sinks.pools]
    cases shared with
    | kept => exact Nat.le_refl _
    | replaced => exact List.length_append ▸ Nat.le_add_right _ _
  refine ⟨makes, names, ?_, fun m mem => ?_, fun m mem => ?_⟩
  · rw [numbered]
    exact List.nodup_range'
  · have number : m.pool ∈ List.range' mid.pools.length pools.length := by
      rw [← numbered]
      exact List.mem_map_of_mem mem
    exact Nat.le_trans grown (List.mem_range'_1.mp number).1
  · obtain ⟨i, bound, rfl⟩ := List.getElem_of_mem mem
    have number : (pools[i]).pool = mid.pools.length + i := by
      have atPlace := congrArg (·[i]?) numbered
      simpa [bound] using atPlace
    refine Engine.getElem?_of_isPrefix grows.pools ?_
    rw [number, engine]
    simp [bound]

/-- What happens after the shared pool was chosen leaves it as it is. -/
theorem sharedStands_of_ready (sinks : SinksOnly e e₁) (ready : PoolsReady doc pools e₁ e₂)
    (grows : Grows e₂ e') : SharedStands doc e e' := by
  obtain ⟨-, -, -, mid, shared, engine, -⟩ := ready
  have sameShared : e₂.shared = mid.shared := by rw [engine]
  have morePools : mid.pools <+: e'.pools := by
    refine List.IsPrefix.trans ?_ grows.pools
    rw [engine]
    exact List.prefix_append _ _
  constructor
  · intro t present
    rcases shared with ⟨absent⟩ | ⟨present', sized⟩
    · cases present.symm.trans absent
    · rename_i size
      cases present.symm.trans present'
      refine ⟨size, e₁.pools.length, sized, grows.shared_of_some sameShared, ?_, ?_⟩
      · exact Nat.le_of_eq (congrArg List.length sinks.pools.symm)
      · exact Engine.getElem?_of_isPrefix morePools List.getElem?_concat_length
  · intro absent
    rcases shared with - | ⟨present, -⟩
    · rw [← sinks.shared, ← sameShared]
      rcases grows.shared with same | ⟨none, pool, serves, new, fresh⟩
      · exact .inl same
      · refine .inr ⟨none, pool, serves, ?_, fresh⟩
        rw [engine, List.length_append] at new
        rw [← sinks.pools]
        omega
    · cases absent.symm.trans present

/-- Whether the pools of a document are all there does not depend on the engine, only their numbers
do. -/
theorem exists_poolsReady (same : e₁.pools = e.pools) (ready : PoolsReady doc pools e e') :
    ∃ e'', PoolsReady doc pools e₁ e'' := by
  obtain ⟨listed, makes, names, mid, shared, -, numbered⟩ := ready
  rcases shared with ⟨absent⟩ | ⟨present, sized⟩
  · rw [← same] at numbered
    exact ⟨_, listed, makes, names, e₁, .kept absent, rfl, numbered⟩
  · dsimp only at numbered
    rw [← same] at numbered
    exact ⟨_, listed, makes, names, _, .replaced present sized, rfl, numbered⟩

/-- The stages after the sinks leave what was registered before them to the loggers, so that what
these do is done to the registry before the build. -/
theorem enrolled_of_registers {made mid last : Builder} {r : Setup Unit}
    {globalPattern : Option String} {entries taken later : List Document.Table}
    {loggers : List (String × Nat)}
    (arrived : ((Sink.resolve doc).run Engine.backend ⟨e, []⟩).result = .ok made.made)
    (sinks : SinksOnly e made.engine) (poolsReady : PoolsReady doc pools made.engine mid.engine)
    (kept : SameLoggers made mid) (ready : Ready doc globalPattern entries)
    (registers : Registers (Meaning doc made.made pools globalPattern) mid entries r last taken
      later loggers) : Enrolled doc e r last globalPattern pools taken later loggers := by
  have same : mid.engine.loggers = e.loggers := kept.loggers.trans sinks.loggers
  have sameSinks : last.made = made.made := registers.made.trans kept.made
  have priorFind : mid.engine.find? = e.find? := by
    funext name
    rw [Engine.find?, kept.registry, sinks.registry]
    rfl
  rw [← sameSinks] at arrived registers
  exact {
    ready := registers.entries ▸ ready
    sinks := arrived
    registry := by rw [registers.registry, priorFind]
    declared := registers.declared
    numbered := by rw [registers.numbered, same]
    kept := same ▸ registers.grows.loggers
    poolsStand := poolsStand_of_ready sinks poolsReady registers.grows
    sharedStands := sharedStands_of_ready sinks poolsReady registers.grows
    ends := registers.ends }

end Standing

/-- A build in the engine, on any disk and with any prior registry. When a stage before the loggers
is at fault nothing is registered, replaced or removed. Otherwise the registry after the build is the
one before it, overwritten in order by the loggers of exactly the entries before the first one that
makes none. -/
theorem document_overwrites_registry (doc : Document.Table) (e : Engine) :
    let run := (document doc).run Engine.backend ⟨e, []⟩
    (¬Reaches doc e ∧ (∃ err, run.result = .error err) ∧
        run.state.engine.registry = e.registry ∧ run.state.engine.loggers = e.loggers) ∨
      Reaches doc e ∧ ∃ globalPattern pools taken later loggers,
        Enrolled doc e run.result run.state globalPattern pools taken later loggers := by
  intro run
  -- The result of the first stage is kept beside what the stage does.
  have first : (Sink.resolve doc : Plan SinkRef Nat Nat _).Ends Engine.backend ⟨e, []⟩ fun r t =>
      (SinksOnly e t.engine ∧ ∀ sinks, r = .ok sinks → t.made = sinks) ∧
        ((Sink.resolve doc).run Engine.backend ⟨e, []⟩).result = r :=
    ⟨Engine.resolve_ends (b := ⟨e, []⟩) doc rfl, rfl⟩
  have whole : (document doc).Ends Engine.backend ⟨e, []⟩ fun r t =>
      (¬Reaches doc e ∧ (∃ err, r = .error err) ∧ t.engine.registry = e.registry ∧
          t.engine.loggers = e.loggers) ∨
        Reaches doc e ∧ ∃ globalPattern pools taken later loggers,
          Enrolled doc e r t globalPattern pools taken later loggers := by
    refine first.bind ?_ ?_
    · rintro err t ⟨⟨sinks, -⟩, failed⟩
      refine .inl ⟨?_, ⟨err, rfl⟩, sinks.registry, sinks.loggers⟩
      rintro ⟨⟨found, arrived⟩, -, -, -⟩
      cases failed.symm.trans arrived
    rintro sinks t ⟨⟨sinksOnly, made⟩, arrived⟩
    obtain rfl := made sinks rfl
    refine (afterSinks_ends doc t).imp ?_
    rintro r u (⟨globalPattern, entries, pools, mid, declared, poolsReady, ready, kept, taken, later,
      loggers, registers⟩ | ⟨failed, kept, fault⟩)
    · obtain ⟨_, onPrior⟩ := exists_poolsReady sinksOnly.pools.symm poolsReady
      have reached : Reaches doc e :=
        ⟨⟨_, arrived⟩, declared, ⟨pools, _, onPrior⟩, globalPattern, entries, ready⟩
      exact .inr ⟨reached, globalPattern, pools, taken, later, loggers,
        enrolled_of_registers arrived sinksOnly poolsReady kept ready registers⟩
    · refine .inl ⟨?_, failed, kept.registry.trans sinksOnly.registry,
        kept.loggers.trans sinksOnly.loggers⟩
      rintro ⟨-, declared, ⟨pools, e', poolsReady⟩, loggers⟩
      exact fault ⟨declared, ⟨pools, exists_poolsReady sinksOnly.pools poolsReady⟩, loggers⟩
  exact whole

/-- An engine with two registered loggers. -/
def twoRegistered : Engine :=
  ⟨⟨.empty, [], [], .never, ⟨0, 0, 0⟩, 7⟩, [],
    [⟨"main", .off, .standard, [], .direct⟩, ⟨"old", .off, .standard, [], .direct⟩],
    [.fresh Pool.standardSize], [("main", 0), ("old", 1)], some 0, 0⟩

/-- One name is declared by two entries, and the pattern of the entry behind them does not compile.
The name goes to the logger of its second entry, which delivers over the document's own pool. -/
theorem second_entry_keeps_name :
    let doc : Document.Table :=
      [("sink", .array [.table [("name", .text "out"), ("type", .text "stdout_sink_mt")]]),
        ("pattern", .array [.table [("name", .text "short"), ("value", .text "%v")],
          .table [("name", .text "bad"), ("value", .text "%")]]),
        ("global_thread_pool", .table (poolTable [])),
        ("thread_pool", .array [.table (poolTable [("name", .text "io")])]),
        ("logger", .array [.table asyncLogger,
          .table [("name", .text "net"), ("type", .text "async"), ("level", .text "warn"),
            ("sinks", .array [.text "out"])],
          .table [("name", .text "late"), ("pattern", .text "bad"), ("sinks", .array [.text "out"])],
          .table syncLogger])]
    let run := (document doc).run Engine.backend ⟨twoRegistered, []⟩
    (Reaches doc twoRegistered ∧ ∃ globalPattern pools taken later loggers,
        Enrolled doc twoRegistered run.result run.state globalPattern pools taken later loggers) ∧
      run.state.engine.registry = [("main", 0), ("old", 1), ("net", 3)] ∧
      (run.state.engine.loggers[2]?.map fun l => (l.level, l.pattern.source, l.sinks, l.dispatch)) =
        some (.debug, "%v", [.leaf 0, .leaf 0], .pooled 2 .overrunOldest) ∧
      (run.state.engine.loggers[3]?.map fun l => (l.level, l.pattern, l.sinks, l.dispatch)) =
        some (.warn, .standard, [.leaf 0], .pooled 1 .block) := by
  intro doc run
  have registry : run.state.engine.registry = [("main", 0), ("old", 1), ("net", 3)] := rfl
  refine ⟨?_, registry, rfl, rfl⟩
  rcases document_overwrites_registry doc twoRegistered with ⟨-, -, same, -⟩ | reached
  · cases registry.symm.trans same
  · exact reached

end LogTopology.Build
