import LogTopology.Build
import LogTopology.Proofs.Plan.Journal
import LogTopology.Proofs.Plan.Refusal
/-!
# Builds stop at the first refusal

No stage of a build hides the error of a call or goes on after one: all of them are put together
from calls, reports and contexts, and so the plan for a document is candid (`document_candid`). What
is known of refusals in candid plans is then known of builds. The calls up to a refusal, and the
handles that they were answered with, do not depend on the refusal that follows.

`document_stops_at_first_refusal` compares two builds of one document on one backend, with and
without refusals. If the build without refusals makes a call that is refused, the other one makes
the same calls up to the first such call, gets the same answers to them, makes no call behind it,
and ends with the error of the refusal in the contexts of its place. If no refused call is made the
two builds are the same.

Each stage has one lemma, which follows the shape of the stage and knows nothing of the backend. A
refusal is an error in the place of an answer: what a backend has done by itself before it fails is
not told.
-/

namespace LogTopology

variable {σ S P L : Type}

/-! ## Sinks -/

namespace Sink

open Plan (Candid)

/-- Preparing a sink hides no error: that of its directory is the call's own. -/
theorem prepare_candid (d : Declaration) (kind : Kind) :
    (prepare d kind : Plan S P L Unit).Candid := by
  unfold prepare
  refine .bind (.ofSetup _) fun asked => ?_
  cases asked with
  | false => exact .pure ()
  | true =>
    cases kind.directory? with
    | none => exact .pure ()
    | some path => exact .ask _

/-- Setting the level of a sink hides no error. -/
theorem assignLevel_candid (d : Declaration) (sink : S) :
    (assignLevel d sink : Plan S P L Unit).Candid := by
  unfold assignLevel
  refine .bind (.ofSetup _) fun level => ?_
  cases level with
  | none => exact .pure ()
  | some level => exact .ask _

/-- Making a sink hides no error of its three parts. -/
theorem make_candid (table : SinkTable S) (d : Declaration) (kind : Kind) :
    (make table d kind : Plan S P L S).Candid := by
  unfold make
  refine .bind (prepare_candid d kind) fun _ => .bind (.ask _) fun sink => ?_
  exact .bind (assignLevel_candid d sink) fun _ => .bind (.report _) fun _ => .pure sink

/-- An error on the way through the steps is told in the context of the sink that was being made. -/
theorem follow_candid (table : SinkTable S) (steps : List Step) :
    (follow table steps : Plan S P L (SinkTable S)).Candid := by
  induction steps generalizing table with
  | nil => exact .pure table
  | cons step steps ih =>
    cases step with
    | enter name depth => exact .bind (.report _) fun _ => ih table
    | make d kind => exact .bind ((make_candid table d kind).within _) fun sink => ih _

/-- The sinks of a document hide no error, wherever the walk has stopped. -/
theorem resolve_candid (doc : Document.Table) :
    (resolve doc : Plan S P L (SinkTable S)).Candid := by
  unfold resolve
  refine .bind (.ofSetup _) fun found => ?_
  cases found with
  | none => exact .fail _
  | some entries =>
    refine .bind (.ofSetup _) fun ds => .bind (follow_candid _ _) fun table => ?_
    split
    · exact .fail _
    · exact .bind (.report _) fun _ => .pure table

end Sink

/-! ## Patterns and pools -/

namespace PatternTable

open Plan (Candid)

/-- Patterns make no calls, so there is none whose error they could hide. -/
theorem declare_candid (t : PatternTable) (entries : List Document.Table) :
    (t.declare entries : Plan S P L PatternTable).Candid := by
  induction entries generalizing t with
  | nil => exact .pure t
  | cons entry entries ih =>
    unfold declare
    refine .bind (.ofSetup _) fun name => .bind (.ofSetup _) fun value => ?_
    cases (t.get? name).isSome with
    | false => exact ih _
    | true => exact .bind (.report _) fun _ => ih _

/-- The patterns of a document hide no error. -/
theorem ofDocument_candid (doc : Document.Table) :
    (ofDocument doc : Plan S P L PatternTable).Candid := by
  unfold ofDocument
  refine .bind (.ofSetup _) fun found => ?_
  cases found with
  | none => exact .pure _
  | some entries =>
    exact .bind (declare_candid _ _) fun t => .bind (.report _) fun _ => .pure t

end PatternTable

namespace PoolTable

open Plan (Candid)

/-- Setting the shared pool hides no error. -/
theorem setShared_candid (doc : Document.Table) : (setShared doc : Plan S P L Unit).Candid := by
  unfold setShared
  refine .bind (.ofSetup _) fun found => ?_
  cases found with
  | none => exact .pure ()
  | some t => exact .bind (.ofSetup _) fun size => .bind (.ask _) fun _ => .report _

/-- Making the pools hides no error, whichever entry is at fault. -/
theorem make_candid (pools : PoolTable P) (entries : List Document.Table) :
    (make pools entries : Plan S P L (PoolTable P)).Candid := by
  induction entries generalizing pools with
  | nil => exact .pure pools
  | cons entry entries ih =>
    unfold make
    cases Document.entryName? entry with
    | none => exact .fail _
    | some name =>
      dsimp only
      split
      · exact .fail _
      · refine .bind (.ofSetup _) fun size => .bind (.ask _) fun pool => ?_
        exact .bind (.report _) fun _ => ih _

/-- The pools of a document hide no error. -/
theorem ofDocument_candid (doc : Document.Table) :
    (ofDocument doc : Plan S P L (PoolTable P)).Candid := by
  unfold ofDocument
  refine .bind (setShared_candid doc) fun _ => .bind (.ofSetup _) fun found => ?_
  cases found with
  | none => exact .pure _
  | some entries => exact make_candid [] entries

end PoolTable

/-! ## Loggers -/

namespace Logger

open Plan (Candid)

/-- Setting the level of a logger hides no error. -/
theorem assignLevel_candid (logger : L) (level : Option Level) :
    (assignLevel logger level : Plan S P L Unit).Candid := by
  cases level with
  | none => exact .pure ()
  | some level => exact .ask _

/-- A refused pattern is told in the context of its logger. -/
theorem assignPattern_candid (name : String) (logger : L) (pattern : Option String) :
    (assignPattern name logger pattern : Plan S P L Unit).Candid := by
  cases pattern with
  | none => exact .pure ()
  | some pattern =>
    exact (Candid.ask (.setPattern logger pattern)).mapError fun _ => .refusedPattern name .itself

/-- Making a logger hides no error. -/
theorem make_candid (name : String) (order : Order S P) :
    (make name order : Plan S P L L).Candid := by
  unfold make
  refine .bind (.ask _) fun logger => .bind (assignLevel_candid logger _) fun _ => ?_
  exact .bind (assignPattern_candid name logger _) fun _ => .pure logger

/-- Loggers that are registered one after the other hide no error. -/
theorem registerAll_candid (env : Surroundings S P) (entries : List Document.Table) :
    (registerAll env entries : Plan S P L Unit).Candid := by
  induction entries with
  | nil => exact .pure ()
  | cons entry entries ih =>
    unfold registerAll
    cases Document.entryName? entry with
    | none => exact .fail _
    | some name =>
      refine .bind (.ofSetup _) fun order => .bind (make_candid name order) fun logger => ?_
      exact .bind (.ask _) fun _ => .bind (.report _) fun _ => ih

/-- The loggers of a document hide no error. -/
theorem ofDocument_candid (env : Surroundings S P) (doc : Document.Table) :
    (ofDocument env doc : Plan S P L Nat).Candid := by
  unfold ofDocument
  refine .bind (.ofSetup _) fun found => ?_
  cases found with
  | none => exact .fail _
  | some entries => exact .bind (registerAll_candid env entries) fun _ => .pure _

end Logger

/-! ## Documents -/

namespace Build

open Plan (Candid StopsAt)

/-- The stages after the sinks hide no error. -/
theorem afterSinks_candid (doc : Document.Table) (sinks : Sink.SinkTable S) :
    (afterSinks doc sinks : Plan S P L Unit).Candid := by
  unfold afterSinks
  refine .bind (PatternTable.ofDocument_candid doc) fun patterns => ?_
  refine .bind (PoolTable.ofDocument_candid doc) fun pools => .bind (.ofSetup _) fun pattern => ?_
  exact .bind (Logger.ofDocument_candid _ doc) fun _ => .report _

/-- The plan for a document hides no error of any call. -/
theorem document_candid (doc : Document.Table) : (document doc : Plan S P L Unit).Candid :=
  .bind (Sink.resolve_candid doc) fun sinks => afterSinks_candid doc sinks

/-- A build on a backend some of whose calls are refused. If the same build without refusals makes a
call that is refused, the calls that go well are those before the first such call, with the same
answers, no call follows the refused one, and the error carries its message. If it makes none, both
builds make the same calls and come to the same. -/
theorem document_stops_at_first_refusal (doc : Document.Table) (b : Backend σ S P L)
    (refusals : Refusals σ S P L) (s : σ) :
    ((∃ a ∈ (document doc).attempts b s, a.refusal? refusals ≠ none) →
      ∃ before a after e, (document doc).attempts b s = before ++ a :: after ∧
        StopsAt b refusals (document doc) s before a e ∧
        ∃ err context, ((document doc).run (b.refusing refusals) s).result = .error err ∧
          err.message = context ++ e.message) ∧
      ((∀ a ∈ (document doc).attempts b s, a.refusal? refusals = none) →
        (document doc).attempts (b.refusing refusals) s = (document doc).attempts b s ∧
          (document doc).calls (b.refusing refusals) s = (document doc).calls b s ∧
          (document doc).run (b.refusing refusals) s = (document doc).run b s) := by
  constructor
  · intro refused
    obtain ⟨before, a, after, e, split, stops⟩ :=
      Plan.stops_at_first_refusal (document_candid doc) refused
    obtain ⟨err, result, carried⟩ := stops.result
    obtain ⟨context, message⟩ := carried.message
    exact ⟨before, a, after, e, split, stops, err, context, result, message⟩
  · intro unrefused
    obtain ⟨sameAttempts, sameRun⟩ := Plan.run_refusing_of_unrefused unrefused
    refine ⟨sameAttempts, ?_, sameRun⟩
    rw [Plan.calls_eq_filterMap_attempts, Plan.calls_eq_filterMap_attempts, sameAttempts]

/-- A sink that forwards to another, and a logger for it. The build stops when its pattern is
refused; that a logger `other` would be refused makes no difference. -/
theorem build_stops_at_refused_pattern :
    let doc : Document.Table :=
      [("sink", .array [.table [("name", .text "out"), ("type", .text "stdout_sink_mt")],
          .table [("name", .text "both"), ("type", .text "dist_sink_st"),
            ("sinks", .array [.text "out", .text "out"])]]),
        ("global_pattern", .text "%v"),
        ("logger", .array [.table [("name", .text "main"), ("sinks", .array [.text "both"])]])]
    let plan : Plan Journal.Item Journal.Item Journal.Item Unit := document doc
    let b := Journal.backend []
    let pattern := Journal.refusals ["set_pattern:%v", "register:main"]
    let other := Journal.refusals ["create_logger:other"]
    (∃ a ∈ plan.attempts b .empty, a.refusal? pattern ≠ none) ∧
      (∃ before a after e, plan.attempts b .empty = before ++ a :: after ∧
        StopsAt b pattern plan .empty before a e) ∧
      (∀ a ∈ plan.attempts b .empty, a.refusal? other = none) ∧
      plan.run (Journal.backend ["create_logger:other"]) .empty = plan.run b .empty ∧
      (plan.run (Journal.backend ["set_pattern:%v", "register:main"]) .empty).state.entries =
        [.sink 0 "out" .stdout [], .sink 1 "both" (.dist ["out", "out"]) [0, 0],
          .logger 0 "main" [1] .sync] := by
  intro doc plan b pattern other
  obtain ⟨stops, -⟩ := document_stops_at_first_refusal doc b pattern .empty
  obtain ⟨-, same⟩ := document_stops_at_first_refusal doc b other .empty
  have refused : ∃ a ∈ plan.attempts b .empty, a.refusal? pattern ≠ none := by
    have found : (plan.attempts b .empty).any (fun a => (a.refusal? pattern).isSome) = true := by
      decide +kernel
    obtain ⟨a, mem, refused⟩ := List.any_eq_true.mp found
    exact ⟨a, mem, Option.isSome_iff_ne_none.mp refused⟩
  have unrefused : ∀ a ∈ plan.attempts b .empty, a.refusal? other = none := by
    have found : (plan.attempts b .empty).all (fun a => (a.refusal? other).isNone) = true := by
      decide +kernel
    exact fun a mem => Option.isNone_iff_eq_none.mp (List.all_eq_true.mp found a mem)
  obtain ⟨before, a, after, e, split, stopped, -⟩ := stops refused
  refine ⟨refused, ⟨before, a, after, e, split, stopped⟩, unrefused, ?_, by decide +kernel⟩
  rw [Journal.backend_eq_refusing]
  exact (same unrefused).2.2

end Build

end LogTopology
