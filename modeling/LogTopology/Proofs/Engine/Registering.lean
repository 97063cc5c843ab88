import LogTopology.Proofs.Engine.Stages
/-!
# Registering loggers in the engine

What the entries of loggers come to in the engine. An entry that has a name, a meaning and a pattern
that compiles adds one logger, just as the entry means it, and overwrites the registry under its
name; the first entry that lacks one of these ends the stage and is not registered. So the registry
after the stage is the one before it, overwritten in the order of the entries (`registerAll_ends`).

A logger whose pattern does not compile has been made by then; it stays in the engine where nothing
finds it.

`Adds` says that one logger was added last, and the stages of making a logger edit that one; with
the registration they come to a step of `Registers`, which is closed under further entries
(`Registers.cons`). An engine only grows on the way, so a logger that is as its entry means it stays
so whatever comes behind it (`Declared.of_grows`).
-/

namespace LogTopology.Engine

open Plan
open Document (entryName?)
open Logger (Order Means ofEntry_eq_ok)

variable {b t : Builder} {e e' : Engine}

/-! ## Engines that grow -/

/-- Loggers and pools were added behind those there were. The pool that serves all is the same, or
there was none and it was made. -/
structure Grows (e e' : Engine) : Prop where
  loggers : e.loggers <+: e'.loggers
  pools : e.pools <+: e'.pools
  shared : e'.shared = e.shared ∨ e.shared = none ∧
    ∃ pool, e'.shared = some pool ∧ e.pools.length ≤ pool ∧
      e'.pools[pool]? = some (.fresh Pool.standardSize)

/-- What a list has at a place, a longer one that begins with it has there too. -/
theorem getElem?_of_isPrefix {α : Type} {l l' : List α} (longer : l <+: l') {i : Nat} {a : α}
    (found : l[i]? = some a) : l'[i]? = some a := by
  obtain ⟨more, rfl⟩ := longer
  rwa [List.getElem?_append_left (List.getElem?_eq_some_iff.mp found).1]

namespace Grows

theorem refl (e : Engine) : Grows e e :=
  ⟨List.prefix_refl _, List.prefix_refl _, .inl rfl⟩

theorem trans {e e' e'' : Engine} (first : Grows e e') (second : Grows e' e'') : Grows e e'' := by
  refine ⟨first.loggers.trans second.loggers, first.pools.trans second.pools, ?_⟩
  rcases second.shared with same | ⟨none, pool, made, new, fresh⟩
  · rw [same]
    rcases first.shared with same' | ⟨none, pool, made, new, fresh⟩
    · exact .inl same'
    · exact .inr ⟨none, pool, made, new, getElem?_of_isPrefix second.pools fresh⟩
  · rcases first.shared with same' | ⟨-, _, made', -, -⟩
    · exact .inr ⟨same'.symm.trans none, pool, made, Nat.le_trans first.pools.length_le new, fresh⟩
    · cases none.symm.trans made'

/-- A pool that serves all goes on serving all. -/
theorem shared_of_some (grows : Grows e e') {pool : Nat} (serves : e.shared = some pool) :
    e'.shared = some pool := by
  rcases grows.shared with same | ⟨none, -⟩
  · rw [same, serves]
  · cases none.symm.trans serves

end Grows

/-! ## What a logger is like -/

/-- The compiled form of a pattern, or the one that loggers have at first. -/
def CompiledFrom : Option String → Pattern → Prop
  | none, p => p = .standard
  | some source, p => Pattern.compile source = .ok p

/-- How a logger of a mode delivers, where `shared` is the pool that serves all. -/
def Delivers (shared : Option Nat) : LoggerMode Nat → Dispatch → Prop
  | .sync, d => d = .direct
  | .async (.named pool) policy, d => d = .pooled pool policy
  | .async .shared policy, d => ∃ pool, shared = some pool ∧ d = .pooled pool policy

/-- A logger is what an order asks for, where `shared` is the pool that serves all. -/
structure Fulfils (shared : Option Nat) (order : Order SinkRef Nat) (l : LoggerState) : Prop where
  sinks : l.sinks = order.sinks
  level : l.level = order.level.getD .info
  pattern : CompiledFrom order.pattern l.pattern
  dispatch : Delivers shared order.mode l.dispatch

/-- A logger goes on to be what was asked for when the engine grows: the pool that serves all is not
changed once there is one. -/
theorem Fulfils.of_grows {order : Order SinkRef Nat} {l : LoggerState} (grows : Grows e e')
    (fulfils : Fulfils e.shared order l) : Fulfils e'.shared order l := by
  obtain ⟨sinks, level, pattern, dispatch⟩ := fulfils
  refine ⟨sinks, level, pattern, ?_⟩
  cases mode : order.mode with
  | sync =>
    rw [mode] at dispatch
    exact dispatch
  | async pool policy =>
    rw [mode] at dispatch
    cases pool with
    | named pool => exact dispatch
    | shared =>
      obtain ⟨pool, serves, pooled⟩ := dispatch
      exact ⟨pool, grows.shared_of_some serves, pooled⟩

/-! ## One logger -/

/-- A logger was added last, and the registry and the sinks of the build are as they were. -/
structure Adds (b t : Builder) (l : LoggerState) : Prop where
  grows : Grows b.engine t.engine
  loggers : t.engine.loggers = b.engine.loggers ++ [l]
  registry : t.engine.registry = b.engine.registry
  made : t.made = b.made

/-- Finding out how a logger delivers never fails. -/
theorem exists_dispatchOf (e : Engine) (mode : LoggerMode Nat) :
    ∃ d e', dispatchOf e mode = .ok (d, e') ∧ Grows e e' ∧ e'.loggers = e.loggers ∧
      e'.registry = e.registry ∧ Delivers e'.shared mode d := by
  rcases mode with _ | ⟨_ | pool, policy⟩
  · exact ⟨_, e, rfl, .refl e, rfl, rfl, rfl⟩
  · cases serves : e.shared with
    | some pool =>
      have same : dispatchOf e (.async .shared policy) = .ok (.pooled pool policy, e) := by
        simp only [dispatchOf, sharedPool, serves]
        rfl
      exact ⟨_, e, same, .refl e, rfl, rfl, pool, serves, rfl⟩
    | none =>
      have standard : Pool.standardSize.Positive := ⟨by decide, by decide⟩
      have made : dispatchOf e (.async .shared policy) = .ok (.pooled e.pools.length policy,
          { e with
            pools := e.pools ++ [.fresh Pool.standardSize]
            shared := some e.pools.length }) := by
        simp only [dispatchOf, sharedPool, serves, addPool_of_positive standard]
        rfl
      refine ⟨_, _, made, ⟨List.prefix_refl _, List.prefix_append _ _, .inr ⟨serves, _, rfl, ?_, ?_⟩⟩,
        rfl, rfl, _, rfl, rfl⟩
      · exact Nat.le_refl _
      · exact List.getElem?_concat_length
  · exact ⟨_, e, rfl, .refl e, rfl, rfl, rfl⟩

/-- A new logger has the next number, delivers as its mode says, and has the standard pattern and
the level `info`. -/
theorem createLogger_ends (name : String) (sinks : List SinkRef) (mode : LoggerMode Nat) :
    (ask (.createLogger name sinks mode) : Plan SinkRef Nat Nat Nat).Ends backend b fun r t =>
      r = .ok b.engine.loggers.length ∧ ∃ d, Delivers t.engine.shared mode d ∧
        Adds b t ⟨name, .info, .standard, sinks, d⟩ := by
  obtain ⟨d, e, known, grows, loggers, registry, delivers⟩ := exists_dispatchOf b.engine mode
  have answered : backend.perform (.createLogger name sinks mode) b =
      (.ok e.loggers.length, b.withEngine (e.addLogger name sinks d).2) := by
    change settleSetup b (dispatchOf b.engine mode >>= _) = _
    rw [known]
    rfl
  rw [ends_ask, answered]
  refine ⟨by rw [loggers], d, delivers, ?_, ?_, registry, rfl⟩
  · exact grows.trans ⟨List.prefix_append _ _, List.prefix_refl _, .inl rfl⟩
  · rw [← loggers]
    rfl

/-- Editing the last element of a list. -/
theorem modify_concat {α : Type} (front : List α) (a : α) (f : α → α) :
    (front ++ [a]).modify front.length f = front ++ [f a] := by
  induction front with
  | nil => rfl
  | cons head front ih => exact congrArg (head :: ·) ih

/-- The logger that was added last is changed. -/
theorem Adds.edit {l : LoggerState} (adds : Adds b t l) (f : LoggerState → LoggerState) :
    Adds b (t.withEngine (t.engine.editLogger b.engine.loggers.length f)) (f l) := by
  have edited : (t.engine.editLogger b.engine.loggers.length f).loggers =
      b.engine.loggers ++ [f l] := by
    rw [editLogger, adds.loggers]
    exact modify_concat _ _ _
  refine ⟨⟨?_, adds.grows.pools, adds.grows.shared⟩, edited, adds.registry, adds.made⟩
  change _ <+: (t.engine.editLogger b.engine.loggers.length f).loggers
  rw [edited]
  exact List.prefix_append _ _

/-- Setting the level of the logger that was added last. -/
theorem assignLoggerLevel_ends {l : LoggerState} (adds : Adds b t l) (level : Option Level) :
    (Logger.assignLevel b.engine.loggers.length level : Plan SinkRef Nat Nat Unit).Ends backend t
      fun r u => r = .ok () ∧ u.engine.shared = t.engine.shared ∧
        Adds b u { l with level := level.getD l.level } := by
  cases level with
  | none => exact ⟨rfl, rfl, adds⟩
  | some level => exact ⟨rfl, rfl, adds.edit fun l => { l with level := level }⟩

/-- Setting the pattern of the logger that was added last; a pattern that does not compile is
refused, and the logger keeps the standard one. -/
theorem assignPattern_ends {name : String} {l : LoggerState} (adds : Adds b t l)
    (standard : l.pattern = .standard) (pattern : Option String) :
    (Logger.assignPattern name b.engine.loggers.length pattern : Plan SinkRef Nat Nat Unit).Ends
      backend t fun r u => u.engine.shared = t.engine.shared ∧
        ((r = .ok () ∧ ∃ p, CompiledFrom pattern p ∧ Adds b u { l with pattern := p }) ∨
          (∃ err, r = .error err) ∧ (∀ p, ¬CompiledFrom pattern p) ∧ u = t) := by
  cases pattern with
  | none =>
    refine ⟨rfl, .inl ⟨rfl, .standard, rfl, ?_⟩⟩
    rw [← standard]
    exact adds
  | some source =>
    rw [Logger.assignPattern, ends_mapError, ends_ask]
    cases compiled : Pattern.compile source with
    | ok p =>
      have answered : backend.perform (.setPattern b.engine.loggers.length source) t =
          (.ok (), t.withEngine (t.engine.editLogger b.engine.loggers.length
            fun l => { l with pattern := p })) := by
        change settleSetup t (Pattern.compile source >>= _) = _
        rw [compiled]
        rfl
      rw [answered]
      exact ⟨rfl, .inl ⟨rfl, p, compiled, adds.edit fun l => { l with pattern := p }⟩⟩
    | error err =>
      have answered : backend.perform (.setPattern b.engine.loggers.length source) t =
          (.error err, t) := by
        change settleSetup t (Pattern.compile source >>= _) = _
        rw [compiled]
        rfl
      rw [answered]
      refine ⟨rfl, .inr ⟨⟨_, rfl⟩, fun p same => ?_, rfl⟩⟩
      cases compiled.symm.trans same

/-- Making a logger adds one that is as ordered, unless its pattern does not compile. -/
theorem makeLogger_ends (name : String) (order : Order SinkRef Nat) :
    (Logger.make name order : Plan SinkRef Nat Nat Nat).Ends backend b fun r t =>
      (∃ l, r = .ok b.engine.loggers.length ∧ Adds b t l ∧ l.name = name ∧
          Fulfils t.engine.shared order l) ∨
        (∃ err, r = .error err) ∧ (∀ p, ¬CompiledFrom order.pattern p) ∧ ∃ l, Adds b t l := by
  refine (createLogger_ends name order.sinks order.mode).bind (fun err t made => ?_) ?_
  · cases made.1
  rintro _ t ⟨⟨⟩, d, delivers, adds⟩
  refine (assignLoggerLevel_ends adds order.level).bind (fun err u levelled => ?_) ?_
  · cases levelled.1
  rintro ⟨⟩ u ⟨-, sameLevelled, levelled⟩
  refine (assignPattern_ends levelled rfl order.pattern).bind ?_ ?_
  · rintro err v ⟨-, ⟨⟨⟩, -⟩ | ⟨-, uncompiled, rfl⟩⟩
    exact .inr ⟨⟨err, rfl⟩, uncompiled, _, levelled⟩
  · rintro ⟨⟩ v ⟨same, ⟨-, p, compiled, patterned⟩ | ⟨⟨_, ⟨⟩⟩, -⟩⟩
    refine ends_pure.mpr (.inl ⟨_, rfl, patterned, rfl, rfl, rfl, compiled, ?_⟩)
    rw [same, sameLevelled]
    exact delivers

/-! ## The registry -/

/-- A registry overwritten by loggers, each under its name, one after the other. -/
def enrol (registry : String → Option Nat) (loggers : List (String × Nat)) : String → Option Nat :=
  loggers.foldl (fun found l => Function.update found l.1 (some l.2)) registry

/-- Registering a logger overwrites the registry under its name. -/
theorem find?_register {l : LoggerState} {i : Nat} (found : e.loggers[i]? = some l) :
    (e.register i).find? = Function.update e.find? l.name (some i) := by
  funext name
  rw [Function.update_apply]
  simp only [find?, register, found, List.lookup_append, lookup_filter_ne, lookup_cons_eq_ite,
    List.lookup_nil]
  by_cases same : name = l.name
  · rw [if_pos same, if_pos same, if_pos same]
    rfl
  · rw [if_neg same, if_neg same, if_neg same, Option.or_none]

/-! ## All loggers -/

/-- An entry from which a logger can be made: it has a name, a meaning, and a pattern that
compiles. -/
def Makeable (means : Document.Table → Order SinkRef Nat → Prop) (entry : Document.Table) : Prop :=
  ∃ name order p, entryName? entry = some name ∧ means entry order ∧ CompiledFrom order.pattern p

/-- The logger of a number is the one that an entry declares, and has its name. -/
structure Declared (means : Document.Table → Order SinkRef Nat → Prop) (e : Engine)
    (entry : Document.Table) (logger : String × Nat) : Prop where
  name : entryName? entry = some logger.1
  state : ∃ l order, e.loggers[logger.2]? = some l ∧ l.name = logger.1 ∧ means entry order ∧
    Fulfils e.shared order l

/-- A logger goes on to be the one that its entry declares when the engine grows. -/
theorem Declared.of_grows {means : Document.Table → Order SinkRef Nat → Prop}
    {entry : Document.Table} {logger : String × Nat} (grows : Grows e e')
    (declared : Declared means e entry logger) : Declared means e' entry logger := by
  obtain ⟨name, l, order, found, named, meant, fulfils⟩ := declared
  exact ⟨name, l, order, getElem?_of_isPrefix grows.loggers found, named, meant,
    fulfils.of_grows grows⟩

/-- Entries were taken in order, and each has overwritten the registry by a logger of its own; they
are all entries, or the next one makes none. -/
structure Registers (means : Document.Table → Order SinkRef Nat → Prop) (b : Builder)
    (entries : List Document.Table) (r : Setup Unit) (t : Builder) (taken later : List Document.Table)
    (loggers : List (String × Nat)) : Prop where
  entries : entries = taken ++ later
  registry : t.engine.find? = enrol b.engine.find? loggers
  declared : List.Forall₂ (Declared means t.engine) taken loggers
  numbered : loggers.map Prod.snd = List.range' b.engine.loggers.length loggers.length
  grows : Grows b.engine t.engine
  made : t.made = b.made
  ends : (r = .ok () ∧ later = []) ∨
    (∃ err, r = .error err) ∧ ∃ failing rest, later = failing :: rest ∧ ¬Makeable means failing

/-- An entry that makes no logger ends the stage, and nothing is registered for it. -/
theorem registers_of_fault {means : Document.Table → Order SinkRef Nat → Prop}
    {entry : Document.Table} {entries : List Document.Table} {err : SetupError} {t : Builder}
    (grows : Grows b.engine t.engine) (registry : t.engine.registry = b.engine.registry)
    (made : t.made = b.made) (fault : ¬Makeable means entry) :
    Registers means b (entry :: entries) (.error err) t [] (entry :: entries) [] := by
  refine ⟨rfl, ?_, .nil, rfl, grows, made, .inr ⟨⟨err, rfl⟩, entry, entries, rfl, fault⟩⟩
  funext name
  rw [find?, registry]
  rfl

/-- An entry that makes a logger overwrites the registry before those behind it do. -/
theorem Registers.cons {means : Document.Table → Order SinkRef Nat → Prop} {entry : Document.Table}
    {entries : List Document.Table} {r : Setup Unit} {t u : Builder} {l : LoggerState}
    {order : Order SinkRef Nat} {taken later : List Document.Table} {loggers : List (String × Nat)}
    (adds : Adds b t l) (named : entryName? entry = some l.name) (meant : means entry order)
    (fulfils : Fulfils t.engine.shared order l)
    (rest : Registers means (t.withEngine (t.engine.register b.engine.loggers.length)) entries r u
      taken later loggers) :
    Registers means b (entry :: entries) r u (entry :: taken) later
      ((l.name, b.engine.loggers.length) :: loggers) := by
  have added : t.engine.loggers[b.engine.loggers.length]? = some l := by
    rw [adds.loggers]
    exact List.getElem?_concat_length
  have same : (t.engine.register b.engine.loggers.length).loggers = t.engine.loggers ∧
      (t.engine.register b.engine.loggers.length).pools = t.engine.pools ∧
      (t.engine.register b.engine.loggers.length).shared = t.engine.shared := by
    simp only [register, added, and_self]
  have before : t.engine.find? = b.engine.find? := by
    funext name
    rw [find?, adds.registry]
    rfl
  have onward : Grows t.engine u.engine := by
    obtain ⟨loggers, pools, shared⟩ := rest.grows
    rw [Builder.withEngine] at loggers pools shared
    rw [same.1] at loggers
    rw [same.2.1] at pools shared
    rw [same.2.2] at shared
    exact ⟨loggers, pools, shared⟩
  have declared : Declared means t.engine entry (l.name, b.engine.loggers.length) :=
    ⟨named, l, order, added, rfl, meant, fulfils⟩
  refine ⟨?_, ?_, .cons (declared.of_grows onward) rest.declared, ?_, adds.grows.trans onward,
    rest.made.trans adds.made, rest.ends⟩
  · rw [rest.entries]
    rfl
  · rw [rest.registry]
    change enrol (t.engine.register b.engine.loggers.length).find? loggers = _
    rw [find?_register added, before]
    rfl
  · have more := rest.numbered
    change _ = List.range' (t.engine.register b.engine.loggers.length).loggers.length _ at more
    rw [same.1, adds.loggers, List.length_append] at more
    rw [List.map_cons, more]
    exact List.range'_succ.symm

/-- Registering the loggers of some entries: the registry is overwritten by those of the entries
before the first one from which none can be made. -/
theorem registerAll_ends (env : Logger.Surroundings SinkRef Nat) (entries : List Document.Table) :
    (Logger.registerAll env entries : Plan SinkRef Nat Nat Unit).Ends backend b fun r t =>
      ∃ taken later loggers, Registers (Means env.sinks env.patterns.get? env.pools
        env.globalPattern) b entries r t taken later loggers := by
  induction entries generalizing b with
  | nil => exact ⟨[], [], [], rfl, rfl, .nil, rfl, .refl _, rfl, .inl ⟨rfl, rfl⟩⟩
  | cons entry entries ih =>
    rw [Logger.registerAll]
    cases named : entryName? entry with
    | none =>
      refine ends_fail.mpr ⟨[], _, [], registers_of_fault (.refl _) rfl rfl ?_⟩
      rintro ⟨name, order, p, hname, -⟩
      cases named.symm.trans hname
    | some name =>
    dsimp only
    rw [ends_bind, ends_ofSetup]
    cases read : Order.ofEntry env name entry with
    | error err =>
      refine ⟨[], _, [], registers_of_fault (.refl _) rfl rfl ?_⟩
      rintro ⟨_, order, p, -, meant, -⟩
      cases read.symm.trans (ofEntry_eq_ok.mpr meant)
    | ok order =>
      rw [afterwards]
      refine (makeLogger_ends name order).bind ?_ ?_
      · rintro err t (⟨_, ⟨⟩, -⟩ | ⟨-, uncompiled, l, adds⟩)
        refine ⟨[], _, [], registers_of_fault adds.grows adds.registry adds.made ?_⟩
        rintro ⟨_, order', p, -, meant, compiled⟩
        cases read.symm.trans (ofEntry_eq_ok.mpr meant)
        exact uncompiled p compiled
      · rintro _ t (⟨l, ⟨⟩, adds, rfl, fulfils⟩ | ⟨⟨_, ⟨⟩⟩, -⟩)
        rw [ends_bind, ends_ask]
        change afterwards backend _ _ (.ok ()) (t.withEngine
          (t.engine.register b.engine.loggers.length))
        rw [afterwards, ends_bind, ends_report, afterwards]
        refine ih.imp fun r u => ?_
        rintro ⟨taken, later, loggers, rest⟩
        exact ⟨entry :: taken, later, _, rest.cons adds named (ofEntry_eq_ok.mp read) fulfils⟩

end LogTopology.Engine
