import LogTopology.Logger.Declared
import LogTopology.Proofs.Pattern.Table
import LogTopology.Proofs.Pool.Table
import Mathlib.Data.List.Forall2
/-!
# What the entry of a logger asks for

The meaning of an entry, told without the order in which it is read: its sinks, its delivery, its
pattern and its level (`Means`). Reading an entry finds exactly this meaning (`ofEntry_eq_ok`),
before anything is asked for; so an entry without a meaning asks for nothing, and one that has a
meaning asks for its logger, the level and the pattern if there are any, and the registration.

A meaning depends on what the entry may refer to: the sinks and the pools that were made, the
declared patterns and the global one. Each part has a relation with one rule for each way in which
it is given or left out, and one lemma which says that reading that part finds what the relation
holds of. An entry has at most one meaning, as reading has one result.

Which of several faults of an entry is reported depends on the order of reading, and is not told.
-/

namespace LogTopology.Logger

open Document (entryName?)

variable {S P L : Type} {env : Surroundings S P} {name : String} {entry : Document.Table}

/-! ## The meaning of an entry -/

/-- The pool that an entry names, or else the shared one. -/
inductive PoolOf (pools : PoolTable P) (entry : Document.Table) : PoolChoice P → Prop where
  | unnamed (h : Document.optional .string entry "thread_pool" = .ok none) : PoolOf pools entry .shared
  | named {pool : P} (name : String)
      (h : Document.optional .string entry "thread_pool" = .ok (some name))
      (found : pools.lookup name = some pool) : PoolOf pools entry (.named pool)

/-- The policy that an entry names, or else to wait for room. -/
inductive PolicyOf (entry : Document.Table) : OverflowPolicy → Prop where
  | unnamed (h : Document.optional .string entry "overflow_policy" = .ok none) : PolicyOf entry .block
  | named (policy : OverflowPolicy)
      (h : Document.optional .string entry "overflow_policy" = .ok (some policy.name)) :
      PolicyOf entry policy

/-- How an entry delivers. Pool and policy count for the type `async` only. -/
inductive ModeOf (pools : PoolTable P) (entry : Document.Table) : LoggerMode P → Prop where
  | untyped (h : Document.optional .string entry "type" = .ok none) : ModeOf pools entry .sync
  | sync (h : Document.optional .string entry "type" = .ok (some "sync")) : ModeOf pools entry .sync
  | async {pool : PoolChoice P} {policy : OverflowPolicy}
      (h : Document.optional .string entry "type" = .ok (some "async"))
      (hpool : PoolOf pools entry pool) (hpolicy : PolicyOf entry policy) :
      ModeOf pools entry (.async pool policy)

/-- The value of the pattern that an entry names, or else the global pattern. -/
inductive PatternOf (patterns : String → Option String) (globalPattern : Option String)
    (entry : Document.Table) : Option String → Prop where
  | unnamed (h : Document.optional .string entry "pattern" = .ok none) :
      PatternOf patterns globalPattern entry globalPattern
  | named {value : String} (name : String)
      (h : Document.optional .string entry "pattern" = .ok (some name))
      (found : patterns name = some value) : PatternOf patterns globalPattern entry (some value)

/-- The level that an entry names, if it names one. -/
inductive LevelOf (entry : Document.Table) : Option Level → Prop where
  | unnamed (h : Document.optional .string entry "level" = .ok none) : LevelOf entry none
  | named {level : Level} (text : String)
      (h : Document.optional .string entry "level" = .ok (some text))
      (found : Level.parse text = .ok level) : LevelOf entry (some level)

/-- What an entry means where it stands. -/
structure Means (sinks : Sink.SinkTable S) (patterns : String → Option String)
    (pools : PoolTable P) (globalPattern : Option String) (entry : Document.Table)
    (order : Order S P) : Prop where
  sinks : ∃ names, Document.optional Document.Decoder.strings entry "sinks" = .ok (some names) ∧
    names.map (fun name => sinks.lookup name) = order.sinks.map some
  mode : ModeOf pools entry order.mode
  pattern : PatternOf patterns globalPattern entry order.pattern
  level : LevelOf entry order.level

/-! ## Reading an entry -/

/-- What has to be found is found. -/
theorem lookupOr_eq_ok {α : Type} {found : Option α} {e : SetupError} {a : α} :
    lookupOr found e = .ok a ↔ found = some a := by
  cases found with
  | none =>
    constructor
    · intro h
      cases h
    · intro h
      cases h
  | some b =>
    constructor
    · intro h
      cases h
      rfl
    · intro h
      cases h
      rfl

/-- Names are looked up one by one, and all of them have to be found. -/
theorem mapM_lookupOr_eq_ok {α β : Type} {find : α → Option β} {fault : α → SetupError}
    {names : List α} {found : List β} :
    (names.mapM fun name => lookupOr (find name) (fault name)) = .ok found ↔
      names.map find = found.map some := by
  induction names generalizing found with
  | nil =>
    rw [List.mapM_nil, List.map_nil]
    constructor
    · intro h
      cases h
      rfl
    · intro h
      rw [List.map_eq_nil_iff.mp h.symm]
      rfl
  | cons name names ih =>
    rw [List.mapM_cons, Setup.bind_eq_ok, List.map_cons]
    constructor
    · rintro ⟨b, hb, h⟩
      obtain ⟨rest, hrest, h⟩ := Setup.bind_eq_ok.mp h
      cases h
      rw [lookupOr_eq_ok.mp hb, ih.mp hrest]
      rfl
    · intro h
      cases found with
      | nil => cases h
      | cons b rest =>
        injection h with hb hrest
        refine ⟨b, lookupOr_eq_ok.mpr hb, ?_⟩
        rw [ih.mpr hrest]
        rfl

/-! ### Delivery -/

/-- A way of delivery is read from one of two names. -/
theorem parse_delivery_eq_ok {text : String} {delivery : Delivery} :
    Delivery.parse text = .ok delivery ↔
      (text = "sync" ∧ delivery = .sync) ∨ (text = "async" ∧ delivery = .async) := by
  unfold Delivery.parse
  constructor
  · intro h
    split at h
    · cases h
      exact .inl ⟨by assumption, rfl⟩
    · split at h
      · cases h
        exact .inr ⟨by assumption, rfl⟩
      · cases h
  · rintro (⟨rfl, rfl⟩ | ⟨rfl, rfl⟩)
    · rfl
    · rfl

/-- A policy is read from its own name. -/
theorem parse_policy_eq_ok {text : String} {policy : OverflowPolicy} :
    OverflowPolicy.parse text = .ok policy ↔ text = policy.name := by
  unfold OverflowPolicy.parse
  constructor
  · intro h
    split at h
    · cases h
      assumption
    · split at h
      · cases h
        assumption
      · cases h
  · rintro rfl
    cases policy with
    | block => rfl
    | overrunOldest => rfl

/-- The pool of an entry is found just when the entry names one that is there, or none. -/
theorem poolOf_eq_ok {pools : PoolTable P} {pool : PoolChoice P} :
    poolOf pools name entry = .ok pool ↔ PoolOf pools entry pool := by
  unfold poolOf
  rw [Setup.optional_bind_eq_ok]
  constructor
  · rintro (⟨unnamed, h⟩ | ⟨text, named, h⟩)
    · cases h
      exact .unnamed unnamed
    · obtain ⟨handle, found, rfl⟩ := Setup.map_eq_ok.mp h
      exact .named text named (lookupOr_eq_ok.mp found)
  · rintro (⟨unnamed⟩ | ⟨text, named, found⟩)
    · exact .inl ⟨unnamed, rfl⟩
    · exact .inr ⟨text, named, Setup.map_eq_ok.mpr ⟨_, lookupOr_eq_ok.mpr found, rfl⟩⟩

/-- The policy of an entry is read just when it has one or leaves it out. -/
theorem policyOf_eq_ok {policy : OverflowPolicy} :
    policyOf name entry = .ok policy ↔ PolicyOf entry policy := by
  unfold policyOf
  rw [Setup.optional_bind_eq_ok]
  constructor
  · rintro (⟨unnamed, h⟩ | ⟨text, named, h⟩)
    · cases h
      exact .unnamed unnamed
    · obtain rfl := parse_policy_eq_ok.mp (Setup.within_eq_ok.mp h)
      exact .named policy named
  · rintro (⟨unnamed⟩ | ⟨_, named⟩)
    · exact .inl ⟨unnamed, rfl⟩
    · exact .inr ⟨_, named, Setup.within_eq_ok.mpr (parse_policy_eq_ok.mpr rfl)⟩

/-- The way of delivery is read from the type of an entry, and is `sync` without one. -/
theorem deliveryOf_eq_ok {delivery : Delivery} :
    deliveryOf name entry = .ok delivery ↔
      (Document.optional .string entry "type" = .ok none ∧ delivery = .sync) ∨
      (Document.optional .string entry "type" = .ok (some "sync") ∧ delivery = .sync) ∨
      (Document.optional .string entry "type" = .ok (some "async") ∧ delivery = .async) := by
  unfold deliveryOf
  rw [Setup.optional_bind_eq_ok]
  constructor
  · rintro (⟨unnamed, h⟩ | ⟨text, named, h⟩)
    · cases h
      exact .inl ⟨unnamed, rfl⟩
    · rcases parse_delivery_eq_ok.mp (Setup.within_eq_ok.mp h) with ⟨rfl, rfl⟩ | ⟨rfl, rfl⟩
      · exact .inr (.inl ⟨named, rfl⟩)
      · exact .inr (.inr ⟨named, rfl⟩)
  · rintro (⟨unnamed, rfl⟩ | ⟨named, rfl⟩ | ⟨named, rfl⟩)
    · exact .inl ⟨unnamed, rfl⟩
    · exact .inr ⟨"sync", named, rfl⟩
    · exact .inr ⟨"async", named, rfl⟩

/-- The delivery of an entry and then its mode are read exactly when the entry has that mode. -/
theorem modeOf_eq_ok {pools : PoolTable P} {mode : LoggerMode P} :
    (∃ delivery, deliveryOf name entry = .ok delivery ∧ modeOf pools name entry delivery = .ok mode) ↔
      ModeOf pools entry mode := by
  constructor
  · rintro ⟨delivery, hdelivery, hmode⟩
    rcases deliveryOf_eq_ok.mp hdelivery with ⟨untyped, rfl⟩ | ⟨typed, rfl⟩ | ⟨typed, rfl⟩
    · cases hmode
      exact .untyped untyped
    · cases hmode
      exact .sync typed
    · obtain ⟨pool, hpool, h⟩ := Setup.bind_eq_ok.mp hmode
      obtain ⟨policy, hpolicy, h⟩ := Setup.bind_eq_ok.mp h
      cases h
      exact .async typed (poolOf_eq_ok.mp hpool) (policyOf_eq_ok.mp hpolicy)
  · rintro (⟨untyped⟩ | ⟨typed⟩ | ⟨typed, hpool, hpolicy⟩)
    · exact ⟨.sync, deliveryOf_eq_ok.mpr (.inl ⟨untyped, rfl⟩), rfl⟩
    · exact ⟨.sync, deliveryOf_eq_ok.mpr (.inr (.inl ⟨typed, rfl⟩)), rfl⟩
    · refine ⟨.async, deliveryOf_eq_ok.mpr (.inr (.inr ⟨typed, rfl⟩)), ?_⟩
      exact Setup.bind_eq_ok.mpr ⟨_, poolOf_eq_ok.mpr hpool,
        Setup.bind_eq_ok.mpr ⟨_, policyOf_eq_ok.mpr hpolicy, rfl⟩⟩

/-! ### Pattern and level -/

/-- The pattern of an entry is found just when the entry names one that is there, or none. -/
theorem patternOf_eq_ok {pattern : Option String} :
    patternOf env name entry = .ok pattern ↔
      PatternOf env.patterns.get? env.globalPattern entry pattern := by
  unfold patternOf
  rw [Setup.optional_bind_eq_ok]
  constructor
  · rintro (⟨unnamed, h⟩ | ⟨text, named, h⟩)
    · cases h
      exact .unnamed unnamed
    · obtain ⟨value, found, rfl⟩ := Setup.map_eq_ok.mp h
      exact .named text named (lookupOr_eq_ok.mp found)
  · rintro (⟨unnamed⟩ | ⟨text, named, found⟩)
    · exact .inl ⟨unnamed, rfl⟩
    · exact .inr ⟨text, named, Setup.map_eq_ok.mpr ⟨_, lookupOr_eq_ok.mpr found, rfl⟩⟩

/-- The level of an entry is read just when it is a level or left out. -/
theorem levelOf_eq_ok {level : Option Level} :
    levelOf name entry = .ok level ↔ LevelOf entry level := by
  unfold levelOf
  rw [Setup.optional_bind_eq_ok]
  constructor
  · rintro (⟨unnamed, h⟩ | ⟨text, named, h⟩)
    · cases h
      exact .unnamed unnamed
    · obtain ⟨found, hfound, rfl⟩ := Setup.map_eq_ok.mp h
      exact .named text named (Setup.within_eq_ok.mp hfound)
  · rintro (⟨unnamed⟩ | ⟨text, named, found⟩)
    · exact .inl ⟨unnamed, rfl⟩
    · exact .inr ⟨text, named, Setup.map_eq_ok.mpr ⟨_, Setup.within_eq_ok.mpr found, rfl⟩⟩

/-! ### The whole entry -/

/-- Reading an entry finds its meaning, and nothing when it has none. -/
theorem ofEntry_eq_ok {order : Order S P} :
    Order.ofEntry env name entry = .ok order ↔
      Means env.sinks env.patterns.get? env.pools env.globalPattern entry order := by
  unfold Order.ofEntry
  constructor
  · intro h
    obtain ⟨delivery, hdelivery, h⟩ := Setup.bind_eq_ok.mp h
    obtain ⟨names, hnames, h⟩ := Setup.bind_eq_ok.mp h
    obtain ⟨sinks, hsinks, h⟩ := Setup.bind_eq_ok.mp h
    obtain ⟨mode, hmode, h⟩ := Setup.bind_eq_ok.mp h
    obtain ⟨pattern, hpattern, h⟩ := Setup.bind_eq_ok.mp h
    obtain ⟨level, hlevel, h⟩ := Setup.bind_eq_ok.mp h
    cases h
    exact ⟨⟨names, Document.required_eq_ok.mp hnames, mapM_lookupOr_eq_ok.mp hsinks⟩,
      modeOf_eq_ok.mp ⟨delivery, hdelivery, hmode⟩, patternOf_eq_ok.mp hpattern,
      levelOf_eq_ok.mp hlevel⟩
  · rintro ⟨⟨names, hnames, hsinks⟩, hmode, hpattern, hlevel⟩
    obtain ⟨delivery, hdelivery, hmode⟩ := modeOf_eq_ok.mpr hmode
    exact Setup.bind_eq_ok.mpr ⟨delivery, hdelivery,
      Setup.bind_eq_ok.mpr ⟨names, Document.required_eq_ok.mpr hnames,
      Setup.bind_eq_ok.mpr ⟨_, mapM_lookupOr_eq_ok.mpr hsinks,
      Setup.bind_eq_ok.mpr ⟨_, hmode,
      Setup.bind_eq_ok.mpr ⟨_, patternOf_eq_ok.mpr hpattern,
      Setup.bind_eq_ok.mpr ⟨_, levelOf_eq_ok.mpr hlevel, rfl⟩⟩⟩⟩⟩⟩

end LogTopology.Logger
