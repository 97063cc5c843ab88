import LogTopology.Proofs.Logger.Declared
/-!
# What registering loggers asks for

Each entry with a meaning has its segment of calls (`Segment`): the logger is made, gets its level
and its pattern and is registered. The entries are taken in order up to the first one that has no
name or no meaning, and that one has no call at all (`registerAll_yields`).

An entry that is at fault ends the stage, and the entries behind it are not looked at. What was
registered before stays, since the calls for it have been made by then.

The calls are supposed to succeed here, whatever handles they are answered with. A call that fails,
such as that for a pattern that does not compile, is told where the backend is.
-/

namespace LogTopology.Logger

open Document (entryName?)

variable {S P L : Type} {env : Surroundings S P} {name : String} {entries : List Document.Table}

def levelCalls (logger : L) : Option Level → List (Answered S P L)
  | some level => [⟨.setLoggerLevel logger level, ()⟩]
  | none => []

def patternCalls (logger : L) : Option String → List (Answered S P L)
  | some pattern => [⟨.setPattern logger pattern, ()⟩]
  | none => []

/-- The calls that make one logger, answered with its handle. -/
def makeCalls (name : String) (order : Order S P) (logger : L) : List (Answered S P L) :=
  ⟨.createLogger name order.sinks order.mode, logger⟩ ::
    (levelCalls logger order.level ++ patternCalls logger order.pattern)

/-- The segment of an entry: its logger is made as the entry means it, and that logger is
registered. -/
def Segment (sinks : Sink.SinkTable S) (patterns : String → Option String) (pools : PoolTable P)
    (globalPattern : Option String) (entry : Document.Table) (cs : List (Answered S P L)) : Prop :=
  ∃ name order logger, entryName? entry = some name ∧
    Means sinks patterns pools globalPattern entry order ∧
    cs = makeCalls name order logger ++ [⟨.register logger, ()⟩]

/-- The level of a logger is set by one call, if the entry has one. -/
theorem assignLevel_yields {logger : L} {level : Option Level} {cs : List (Answered S P L)}
    {r : Setup Unit} (h : (assignLevel logger level).Yields cs r) :
    cs = levelCalls logger level ∧ r = .ok () := by
  cases level with
  | none => exact Plan.yields_pure.mp h
  | some level =>
    obtain ⟨⟨⟩, rfl, rfl⟩ := Plan.yields_ask.mp h
    exact ⟨rfl, rfl⟩

/-- The pattern of a logger is set by one call, if there is one. -/
theorem assignPattern_yields {logger : L} {pattern : Option String} {cs : List (Answered S P L)}
    {r : Setup Unit} (h : (assignPattern name logger pattern).Yields cs r) :
    cs = patternCalls logger pattern ∧ r = .ok () := by
  cases pattern with
  | none => exact Plan.yields_pure.mp h
  | some pattern =>
    obtain ⟨o, ho, rfl⟩ := Plan.yields_mapError.mp h
    obtain ⟨⟨⟩, rfl, rfl⟩ := Plan.yields_ask.mp ho
    exact ⟨rfl, rfl⟩

/-- Making a logger makes it first, then sets its level, then its pattern. -/
theorem make_yields {order : Order S P} {cs : List (Answered S P L)} {r : Setup L}
    (h : (make name order).Yields cs r) :
    ∃ logger, r = .ok logger ∧ cs = makeCalls name order logger := by
  unfold make at h
  obtain ⟨logger, rest, afterMade, rfl⟩ := Plan.yields_ask_bind h
  obtain ⟨_, first, rest, levelled, afterLevel, rfl⟩ := Plan.yields_bind_sure
    (fun _ _ failed => nomatch (assignLevel_yields failed).2) afterMade
  obtain ⟨_, second, rest, patterned, afterPattern, rfl⟩ := Plan.yields_bind_sure
    (fun _ _ failed => nomatch (assignPattern_yields failed).2) afterLevel
  obtain ⟨rfl, rfl⟩ := Plan.yields_pure.mp afterPattern
  refine ⟨logger, rfl, ?_⟩
  rw [(assignLevel_yields levelled).1, (assignPattern_yields patterned).1, List.append_nil]
  rfl

/-- What is asked for while loggers are registered: the segments of the entries that were taken,
which are all of them or end before one that has no segment. -/
theorem registerAll_yields {cs : List (Answered S P L)} {r : Setup Unit}
    (h : (registerAll env entries).Yields cs r) :
    ∃ before after segments, entries = before ++ after ∧
      List.Forall₂ (Segment env.sinks env.patterns.get? env.pools env.globalPattern) before segments ∧
      cs = segments.flatten ∧
      ((r = .ok () ∧ after = []) ∨ (∃ e, r = .error e) ∧ ∃ failing later, after = failing :: later ∧
        ∀ calls : List (Answered S P L),
          ¬Segment env.sinks env.patterns.get? env.pools env.globalPattern failing calls) := by
  induction entries generalizing cs with
  | nil =>
    obtain ⟨rfl, rfl⟩ := Plan.yields_pure.mp h
    exact ⟨[], [], [], rfl, .nil, rfl, .inl ⟨rfl, rfl⟩⟩
  | cons entry entries ih =>
    unfold registerAll at h
    cases named : entryName? entry with
    | none =>
      rw [named] at h
      obtain ⟨rfl, rfl⟩ := Plan.yields_fail.mp h
      refine ⟨[], _, [], rfl, .nil, rfl, .inr ⟨⟨_, rfl⟩, entry, entries, rfl, ?_⟩⟩
      rintro calls ⟨name, order, logger, hname, -, -⟩
      rw [named] at hname
      cases hname
    | some name =>
    rw [named] at h
    dsimp only at h
    rcases Plan.yields_ofSetup_bind h with ⟨e, read, rfl, rfl⟩ | ⟨order, read, afterRead⟩
    · -- No order can be read from the entry, so no calls are those it asks for.
      refine ⟨[], _, [], rfl, .nil, rfl, .inr ⟨⟨e, rfl⟩, entry, entries, rfl, ?_⟩⟩
      rintro calls ⟨name', order, logger, hname, means, -⟩
      rw [named] at hname
      cases hname
      rw [ofEntry_eq_ok.mpr means] at read
      cases read
    · obtain ⟨logger, first, rest, made, afterMade, rfl⟩ := Plan.yields_bind_sure
        (fun _ _ failed => by
          obtain ⟨_, absurd, -⟩ := make_yields failed
          cases absurd) afterRead
      obtain ⟨_, same, rfl⟩ := make_yields made
      cases same
      obtain ⟨⟨⟩, rest, afterRegistered, rfl⟩ := Plan.yields_ask_bind afterMade
      have later := Plan.yields_report_bind afterRegistered
      obtain ⟨before, after, segments, rfl, segs, rfl, outcome⟩ := ih later
      refine ⟨entry :: before, after, (_ ++ [⟨.register logger, ()⟩]) :: segments, rfl,
        .cons ⟨name, order, logger, named, ofEntry_eq_ok.mp read, rfl⟩ segs, ?_, outcome⟩
      rw [List.flatten_cons, List.append_assoc]
      rfl

/-- A document without loggers asks for nothing; the entries of one that has them are registered. -/
theorem ofDocument_yields {doc : Document.Table} {cs : List (Answered S P L)} {r : Setup Nat}
    (h : (ofDocument env doc).Yields cs r) :
    (cs = [] ∧ (∃ e, r = .error e) ∧
        ∀ entries, Document.tableArray doc "logger" ≠ .ok (some entries)) ∨
      ∃ entries o, Document.tableArray doc "logger" = .ok (some entries) ∧
        (registerAll env entries).Yields cs o ∧
        (o = .ok () ∧ r = .ok entries.length ∨ ∃ e, o = .error e ∧ r = .error e) := by
  unfold ofDocument at h
  rcases Plan.yields_ofSetup_bind h with ⟨e, listed, rfl, rfl⟩ | ⟨found, listed, afterListed⟩
  · rw [listed]
    exact .inl ⟨rfl, ⟨e, rfl⟩, nofun⟩
  rw [listed]
  cases found with
  | none =>
    obtain ⟨rfl, rfl⟩ := Plan.yields_fail.mp afterListed
    exact .inl ⟨rfl, ⟨_, rfl⟩, nofun⟩
  | some entries =>
    rcases Plan.yields_bind.mp afterListed with ⟨e, failed, rfl⟩ | ⟨_, first, rest, registered, after, rfl⟩
    · exact .inr ⟨entries, _, rfl, failed, .inr ⟨e, rfl, rfl⟩⟩
    · obtain ⟨rfl, rfl⟩ := Plan.yields_pure.mp after
      rw [List.append_nil]
      exact .inr ⟨entries, _, rfl, registered, .inl ⟨rfl, rfl⟩⟩

end LogTopology.Logger
