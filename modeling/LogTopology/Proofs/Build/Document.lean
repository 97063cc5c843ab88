import LogTopology.Build
import LogTopology.Proofs.Logger.Registration
import LogTopology.Proofs.Plan.Journal
/-!
# What a document asks for after its sinks

The stages of a build put together. Once the sinks are there, the shared pool is set, the pools are
made and the loggers are registered, each from its own entry; patterns and the global pattern ask
for nothing, they only have to be there before the first logger. A build that stops keeps the calls
that it made: whole entries, up to the one at fault.

`AfterSinks` has a case for each way in which these stages can go: all of them go through, or the
patterns are at fault, or the pools, or the global pattern or the list of loggers, or one entry of a
logger, which then has no segment of calls. `afterSinks_yields` finds the case for any answers that
the calls were given, by following the stages in their order with the yields of each.
`document_calls` joins this to the calls for the sinks and states it for runs on a backend that
never fails.

Which error a stage reports is told here only as far as it ends the calls. Backends that refuse a
call, and the calls for the sinks themselves, have modules of their own.
-/

namespace LogTopology.Build

open Document (entriesOf)
open PatternTable (lastValue?)
open PoolTable (SetsUp)

variable {σ S P L : Type} {doc : Document.Table} {sinks : Sink.SinkTable S}

/-- The segment of a logger in a document that has made these sinks and pools. -/
def SegmentIn (doc : Document.Table) (sinks : Sink.SinkTable S) (pools : PoolTable P)
    (globalPattern : Option String) : Document.Table → List (Answered S P L) → Prop :=
  Logger.Segment sinks (lastValue? (entriesOf doc "pattern")) pools globalPattern

/-- Whether the first logger of a document is reached once its patterns and pools are there. -/
structure Ready (doc : Document.Table) (globalPattern : Option String)
    (entries : List Document.Table) : Prop where
  global : Document.optional .string doc "global_pattern" = .ok globalPattern
  loggers : Document.tableArray doc "logger" = .ok (some entries)

/-- What a document asks for once its sinks are there, and how that ends. -/
inductive AfterSinks (doc : Document.Table) (sinks : Sink.SinkTable S) :
    List (Answered S P L) → Setup Unit → Prop where
  | complete {pools : PoolTable P} {globalPattern : Option String} {entries : List Document.Table}
      {cs : List (Answered S P L)} {segments : List (List (Answered S P L))}
      (patterns : PatternTable.Declared doc) (hpools : SetsUp doc cs (.ok pools))
      (ready : Ready doc globalPattern entries)
      (hsegments : List.Forall₂ (SegmentIn doc sinks pools globalPattern) entries segments) :
      AfterSinks doc sinks (cs ++ segments.flatten) (.ok ())
  | loggerAtFault {pools : PoolTable P} {globalPattern : Option String}
      {before later : List Document.Table} {failing : Document.Table}
      {cs : List (Answered S P L)} {segments : List (List (Answered S P L))} (e : SetupError)
      (patterns : PatternTable.Declared doc) (hpools : SetsUp doc cs (.ok pools))
      (ready : Ready doc globalPattern (before ++ failing :: later))
      (hsegments : List.Forall₂ (SegmentIn doc sinks pools globalPattern) before segments)
      (fault : ∀ calls : List (Answered S P L),
        ¬SegmentIn doc sinks pools globalPattern failing calls) :
      AfterSinks doc sinks (cs ++ segments.flatten) (.error e)
  | unready {pools : PoolTable P} {cs : List (Answered S P L)} (e : SetupError)
      (patterns : PatternTable.Declared doc) (hpools : SetsUp doc cs (.ok pools))
      (fault : ∀ globalPattern entries, ¬Ready doc globalPattern entries) :
      AfterSinks doc sinks cs (.error e)
  | poolsAtFault {cs : List (Answered S P L)} (e : SetupError)
      (patterns : PatternTable.Declared doc) (hpools : SetsUp (P := P) doc cs (.error e)) :
      AfterSinks doc sinks cs (.error e)
  | patternsAtFault (e : SetupError) (fault : ¬PatternTable.Declared doc) :
      AfterSinks doc sinks [] (.error e)

/-- How the stages after the sinks go, read off the calls that they make and from what they come to.
-/
theorem afterSinks_yields {cs : List (Answered S P L)} {r : Setup Unit}
    (h : (afterSinks doc sinks).Yields cs r) : AfterSinks doc sinks cs r := by
  unfold afterSinks at h
  rcases Plan.yields_bind.mp h with ⟨e, failed, rfl⟩ | ⟨patterns, asked, _, listed, afterPatterns, rfl⟩
  · obtain ⟨rfl, ⟨_, absurd, -⟩ | ⟨-, fault⟩⟩ := PatternTable.ofDocument_yields failed
    · cases absurd
    · exact .patternsAtFault e fault
  obtain ⟨rfl, hpatterns, values⟩ : asked = [] ∧ PatternTable.Declared doc ∧
      patterns.get? = lastValue? (entriesOf doc "pattern") := by
    obtain ⟨rfl, ⟨t, same, declared, values⟩ | ⟨⟨_, absurd⟩, -⟩⟩ :=
      PatternTable.ofDocument_yields listed
    · cases same
      exact ⟨rfl, declared, funext values⟩
    · cases absurd
  rw [List.nil_append]
  rcases Plan.yields_bind.mp afterPatterns with
    ⟨e, failed, rfl⟩ | ⟨pools, poolCalls, _, setUp, afterPools, rfl⟩
  · exact .poolsAtFault e hpatterns (PoolTable.ofDocument_yields failed)
  have hpools := PoolTable.ofDocument_yields setUp
  -- A fault that shows only now leaves the calls of all pools.
  have unready (e : SetupError) (fault : ∀ globalPattern entries, ¬Ready doc globalPattern entries) :
      AfterSinks doc sinks (poolCalls ++ []) (.error e) := by
    rw [List.append_nil]
    exact .unready e hpatterns hpools fault
  rcases Plan.yields_ofSetup_bind afterPools with
    ⟨e, hglobal, rfl, rfl⟩ | ⟨globalPattern, hglobal, afterGlobal⟩
  · refine unready e fun _ _ ready => ?_
    cases hglobal.symm.trans ready.global
  obtain ⟨_, registered, same⟩ : ∃ o, (Logger.ofDocument ⟨sinks, patterns, pools,
      globalPattern⟩ doc).Yields _ o ∧ r = o.map fun _ => () := by
    rcases Plan.yields_bind.mp afterGlobal with ⟨e, failed, rfl⟩ | ⟨n, _, _, done, reported, rfl⟩
    · exact ⟨_, failed, rfl⟩
    · obtain ⟨rfl, rfl⟩ := Plan.yields_report.mp reported
      rw [List.append_nil]
      exact ⟨_, done, rfl⟩
  rw [same]
  rcases Logger.ofDocument_yields registered with
    ⟨rfl, ⟨e, rfl⟩, unlisted⟩ | ⟨entries, o, present, taken, outcome⟩
  · exact unready e fun _ _ ready => unlisted _ ready.loggers
  obtain ⟨before, after, segments, rfl, segs, rfl, ends⟩ := Logger.registerAll_yields taken
  dsimp only at segs ends
  rw [values] at segs ends
  rcases outcome with ⟨rfl, rfl⟩ | ⟨e, rfl, rfl⟩
  · rcases ends with ⟨-, rfl⟩ | ⟨⟨_, absurd⟩, -⟩
    · rw [List.append_nil] at present
      exact .complete hpatterns hpools ⟨hglobal, present⟩ segs
    · cases absurd
  · rcases ends with ⟨absurd, -⟩ | ⟨-, failing, later, rfl, fault⟩
    · cases absurd
    · exact .loggerAtFault e hpatterns hpools ⟨hglobal, present⟩ segs fault

/-- The calls of a build on a backend that never fails. A build that fails over its sinks makes no
other call; after its sinks it makes the calls for the pools and then, logger by logger, those for
the loggers. -/
theorem document_calls {b : Backend σ S P L} (never : b.NeverFails) (doc : Document.Table) (s : σ) :
    (∀ e, ((Sink.resolve doc).run b s).result = .error e →
        (document doc).calls b s = (Sink.resolve doc).calls b s ∧
          ((document doc).run b s).result = .error e) ∧
      ∀ sinks, ((Sink.resolve doc).run b s).result = .ok sinks →
        ∃ rest, (document doc).calls b s = (Sink.resolve doc).calls b s ++ rest ∧
          AfterSinks doc sinks rest ((document doc).run b s).result := by
  constructor
  · intro e failed
    exact Plan.run_bind_of_error failed
  · intro sinks resolved
    obtain ⟨calls, result⟩ := Plan.run_bind_of_ok (f := afterSinks doc) resolved
    refine ⟨_, calls, ?_⟩
    have yields := afterSinks_yields
      (Plan.yields_calls never (afterSinks doc sinks) ((Sink.resolve doc).run b s).state)
    rw [← result] at yields
    exact yields

/-- The sizes of a pool, with an optional name before them. -/
def poolTable (named : Document.Table) : Document.Table :=
  named ++ [("queue_size", .integer 64), ("num_threads", .integer 2)]

/-- An entry of a logger that delivers over the pool `io`, with a pattern and a level of its own. -/
def asyncLogger : Document.Table :=
  [("name", .text "net"), ("type", .text "async"), ("thread_pool", .text "io"),
    ("overflow_policy", .text "overrun_oldest"), ("pattern", .text "short"),
    ("level", .text "debug"), ("sinks", .array [.text "out", .text "out"])]

/-- An entry of a logger that delivers itself; the pool that it names does not count. -/
def syncLogger : Document.Table :=
  [("name", .text "main"), ("thread_pool", .text "nowhere"), ("sinks", .array [.text "out"])]

/-- Two pools, a pattern declared twice, and two loggers. The second logger of the other document
has a sink that is not there, and the first one is kept. -/
theorem loggers_called_up_to_fault :
    let doc (loggers : List Document.Value) : Document.Table :=
      [("sink", .array [.table [("name", .text "out"), ("type", .text "stdout_sink_mt")]]),
        ("pattern", .array [.table [("name", .text "short"), ("value", .text "%v")],
          .table [("name", .text "short"), ("value", .text "%l %v")]]),
        ("global_pattern", .text "%t"), ("global_thread_pool", .table (poolTable [])),
        ("thread_pool", .array [.table (poolTable [("name", .text "io")])]),
        ("logger", .array loggers)]
    let plan (loggers : List Document.Value) : Plan Journal.Item Journal.Item Journal.Item Unit :=
      document (doc loggers)
    let good := [.table asyncLogger, .table syncLogger]
    let bad := [.table asyncLogger, .table [("name", .text "lost"), ("sinks", .array [.text "no"])]]
    (Journal.backend []).NeverFails ∧
      (∃ rest, AfterSinks (doc good) [("out", (⟨0, "out"⟩ : Journal.Item))] rest (.ok ()) ∧
        (plan good).calls (Journal.backend []) .empty =
          (Sink.resolve (doc good)).calls (Journal.backend []) .empty ++ rest) ∧
      ∃ rest e, AfterSinks (doc bad) [("out", (⟨0, "out"⟩ : Journal.Item))] rest (.error e) ∧
        (plan bad).calls (Journal.backend []) .empty =
          (Sink.resolve (doc bad)).calls (Journal.backend []) .empty ++ rest := by
  intro doc plan good bad
  obtain ⟨-, goodCalls⟩ := document_calls Journal.backend_neverFails (doc good) .empty
  obtain ⟨-, badCalls⟩ := document_calls Journal.backend_neverFails (doc bad) .empty
  obtain ⟨rest, same, after⟩ := goodCalls [("out", ⟨0, "out"⟩)] rfl
  obtain ⟨rest', same', after'⟩ := badCalls [("out", ⟨0, "out"⟩)] rfl
  exact ⟨Journal.backend_neverFails, ⟨rest, after, same⟩, rest', _, after', same'⟩

end LogTopology.Build
