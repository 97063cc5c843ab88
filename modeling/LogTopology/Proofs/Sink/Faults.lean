import LogTopology.Journal
import LogTopology.Proofs.Plan.Trials
import LogTopology.Proofs.Setup
import LogTopology.Proofs.Sink.Stopped
import LogTopology.Sink.Resolve
/-!
# Whose fault it is

A sink may be asked for by a sink that is itself asked for by another, and so on. When it cannot be
made, the error names that sink and none of those that ask for it: exactly one context is put around
the cause, that of the sink whose own fields, targets or calls are at fault (`OwnFault`).
`resolve_ensures` says so of the plan for all sinks, whatever the backend answers and whichever call
fails, and `resolve_error_names_faulty_sink` of every run.

The causes are told from the declaration and the attempted calls. What the backend says when a call
fails is its own affair, and stands behind the context as it is.

`Unmade` has a rule for each way in which the stage fails: there is no list of sinks, an entry is no
declaration, the references go round in a cycle, or one sink is at fault. `OwnFault` lists what a
sink can be at fault for: its kind, a target that is not declared, its flag, its directory, its
making or its level. That the error is told in one context comes from the shape of the plan, where
each sink has its own context around it and visits put none around those of their targets.
-/

namespace LogTopology

variable {σ S P L α β : Type}

/-! ## Contexts -/

/-- The contexts of an error, the outermost first. -/
def SetupError.contexts : SetupError → List Context
  | .within context cause => context :: cause.contexts
  | _ => []

namespace SetupError

/-- The error has no context. -/
def Bare (e : SetupError) : Prop :=
  e.contexts = []

end SetupError

open Setup (Ends FailsWith)
open SetupError (Bare)

section Fields

variable {decode : Document.Decoder α} {t : Document.Table} {field : String}

/-- A field that is refused is refused without a context. -/
theorem optional_bare : FailsWith Bare (Document.optional decode t field) := by
  unfold Document.optional
  cases Document.lookup decode t field with
  | present _ => trivial
  | absent => trivial
  | mismatch _ => rfl

/-- A field with a default is refused without a context. -/
theorem optionalOr_bare {default : α} :
    FailsWith Bare (Document.optionalOr decode t field default) :=
  optional_bare.map fun _ _ => trivial

/-- A field that a kind asks for is refused without a context. -/
theorem asked_bare {f : Sink.Family} {holding : String} :
    FailsWith Bare (Sink.Kind.asked f decode holding field t) := by
  unfold Sink.Kind.asked Document.required
  cases Document.lookup decode t field with
  | present _ => trivial
  | absent => rfl
  | mismatch _ => rfl

end Fields

namespace Sink

/-- What is decoded is of the family that was asked for, and what is said when nothing can be decoded
has no context yet. -/
theorem decode_ends (f : Family) (t : Document.Table) :
    Ends (fun kind => kind.family = f) Bare (Kind.decode f t) := by
  cases f with
  | basicFile => exact asked_bare.bind fun _ _ => optionalOr_bare.bind fun _ _ => rfl
  | rotatingFile =>
    refine asked_bare.bind fun _ _ => asked_bare.bind fun size _ => asked_bare.bind fun _ _ => ?_
    cases ByteSize.parse size with
    | error _ => rfl
    | ok _ => rfl
  | dailyFile =>
    refine asked_bare.bind fun _ _ => asked_bare.bind fun hour _ => ?_
    refine asked_bare.bind fun minute _ => ?_
    by_cases late : 23 < hour
    · rw [if_pos late]
      rfl
    rw [if_neg late]
    by_cases later : 59 < minute
    · rw [if_pos later]
      rfl
    rw [if_neg later]
    rfl
  | syslog =>
    refine optionalOr_bare.bind fun facility _ => ?_
    split
    · rfl
    · exact optionalOr_bare.bind fun _ _ => optionalOr_bare.bind fun _ _ => rfl
  | dist => exact asked_bare.map fun _ _ => rfl
  | _ => rfl

/-- A level that is refused is refused without a context. -/
theorem Declaration.level_bare (d : Declaration) : FailsWith Bare d.level := by
  refine optional_bare.bind fun found _ => ?_
  cases found with
  | none => trivial
  | some text =>
    have parsed : FailsWith Bare (Level.parse text) := by
      unfold Level.parse
      cases Level.ofName? text with
      | some _ => trivial
      | none => rfl
    exact parsed.map fun _ _ => trivial

/-! ## Faults -/

/-- The attempts end with one at the given call, which failed with the given error. -/
def EndsRefused (attempts : List (Attempt σ S P L)) (c : Call S P L α) (e : SetupError) : Prop :=
  ∃ before s, attempts = before ++ [⟨c, s, .error e⟩]

/-- What keeps a sink from being made when its targets are there. -/
inductive MakingFault (d : Declaration) (kind : Kind) (attempts : List (Attempt σ S P L)) :
    SetupError → Prop where
  | badFlag {e : SetupError}
      (unread : Document.optionalOr .flag d.table "create_parent_dir" false = .error e) :
      MakingFault d kind attempts e
  | directory {path : String} {e : SetupError}
      (wanted : Document.optionalOr .flag d.table "create_parent_dir" false = .ok true)
      (here : kind.directory? = some path)
      (refused : EndsRefused attempts (.createDirectory path) e) :
      MakingFault d kind attempts e
  | sink {forwards : List S} {e : SetupError}
      (refused : EndsRefused attempts (.createSink d.name kind forwards) e) :
      MakingFault d kind attempts e
  /-- The level is read when the sink is there. -/
  | badLevel {e : SetupError} (unread : d.level = .error e) (made : d.name ∈ namesOf attempts) :
      MakingFault d kind attempts e
  | level {sink : S} {level : Level} {e : SetupError} (given : d.level = .ok (some level))
      (made : (d.name, sink) ∈ sinksOf attempts)
      (refused : EndsRefused attempts (.setSinkLevel sink level) e) : MakingFault d kind attempts e

/-- What a declared sink fails for by itself. -/
inductive OwnFault (ds : List Declaration) (d : Declaration) (attempts : List (Attempt σ S P L)) :
    SetupError → Prop where
  | undecodable {e : SetupError} (unread : Kind.decode d.family d.table = .error e) :
      OwnFault ds d attempts e
  /-- The targets before the one that is not declared have been made. -/
  | unknownTarget {kind : Kind} {front back : List String} {t : String}
      (decoded : Kind.decode d.family d.table = .ok kind)
      (listed : kind.targets = front ++ t :: back) (made : ∀ n ∈ front, n ∈ namesOf attempts)
      (unknown : t ∉ ds.map Declaration.name) : OwnFault ds d attempts (.unknownTarget t d.name)
  | making {kind : Kind} {e : SetupError} (decoded : Kind.decode d.family d.table = .ok kind)
      (made : ∀ n ∈ kind.targets, n ∈ namesOf attempts) (fault : MakingFault d kind attempts e) :
      OwnFault ds d attempts e

/-- Why the sinks of a document have not been made. -/
inductive Unmade (doc : Document.Table) (attempts : List (Attempt σ S P L)) : SetupError → Prop where
  | unlisted {e : SetupError} (unread : Document.tableArray doc "sink" = .error e) :
      Unmade doc attempts e
  | absent (missing : Document.tableArray doc "sink" = .ok none) : Unmade doc attempts .noSinks
  | undeclared {entries : List Document.Table} {e : SetupError}
      (present : Document.tableArray doc "sink" = .ok (some entries))
      (refused : Declaration.collect [] entries = .error e) : Unmade doc attempts e
  | own {entries : List Document.Table} {ds : List Declaration} {d : Declaration}
      {cause : SetupError} (present : Document.tableArray doc "sink" = .ok (some entries))
      (collected : Declaration.collect [] entries = .ok ds) (mem : d ∈ ds)
      (fault : OwnFault ds d attempts cause) : Unmade doc attempts (.within (.sink d.name) cause)
  /-- The walk has stopped at a cycle, and what it had made before has been made. -/
  | cycle {entries : List Document.Table} {ds : List Declaration} {p : Progress}
      {chain : List String} (present : Document.tableArray doc "sink" = .ok (some entries))
      (collected : Declaration.collect [] entries = .ok ds)
      (stopped : walk ds = (p, some (.sinkCycle chain))) (made : namesOf attempts = p.made) :
      Unmade doc attempts (.sinkCycle chain)

/-- A fault has no context of its own, unless the last call was refused with one. -/
theorem OwnFault.bare_or_refused {ds : List Declaration} {d : Declaration}
    {attempts : List (Attempt σ S P L)} {cause : SetupError} (fault : OwnFault ds d attempts cause) :
    cause.Bare ∨ ∃ last ∈ attempts.getLast?, last.error? = some cause := by
  have last {α : Type} {c : Call S P L α} {e : SetupError} (refused : EndsRefused attempts c e) :
      ∃ last ∈ attempts.getLast?, last.error? = some e := by
    obtain ⟨before, s, rfl⟩ := refused
    exact ⟨_, List.getLast?_concat, rfl⟩
  cases fault with
  | undecodable unread => exact .inl ((decode_ends _ _).of_error unread)
  | unknownTarget => exact .inl rfl
  | making _ _ fault =>
    cases fault with
    | badFlag unread => exact .inl (optionalOr_bare.of_error unread)
    | badLevel unread _ => exact .inl (d.level_bare.of_error unread)
    | directory _ _ refused => exact .inr (last refused)
    | sink refused => exact .inr (last refused)
    | level _ _ refused => exact .inr (last refused)

/-! ## One sink -/

open Plan

section Making

variable {d : Declaration} {before : List (Attempt σ S P L)}

/-- Preparing a sink makes none, and fails for its flag or its directory. -/
theorem prepare_ensures (d : Declaration) (kind : Kind) (before : List (Attempt σ S P L)) :
    (prepare d kind : Plan S P L Unit).Ensures before
      (fun _ after => sinksOf after = sinksOf before) fun e after =>
        sinksOf after = sinksOf before ∧ MakingFault d kind after e := by
  rw [prepare, Ensures, meets_bind, meets_ofSetup]
  refine ⟨fun e unread => ⟨rfl, .badFlag unread⟩, fun wanted asked => ?_⟩
  cases wanted with
  | false => rfl
  | true =>
    cases here : kind.directory? with
    | none => rfl
    | some path =>
      refine ensures_ask.mpr ⟨fun s e => ⟨sinksOf_concat_of_none rfl, ?_⟩, fun s _ => ?_⟩
      · exact .directory asked here ⟨before, s, rfl⟩
      · exact sinksOf_concat_of_none rfl

/-- Setting the level of a sink makes none, and fails for the level or the call; the sink is there
by then. -/
theorem assignLevel_ensures (kind : Kind) {sink : S} (made : (d.name, sink) ∈ sinksOf before) :
    (assignLevel d sink : Plan S P L Unit).Ensures before
      (fun _ after => sinksOf after = sinksOf before) fun e after =>
        sinksOf after = sinksOf before ∧ MakingFault d kind after e := by
  rw [assignLevel, Ensures, meets_bind, meets_ofSetup]
  refine ⟨fun e unread => ⟨rfl, .badLevel unread (List.mem_map_of_mem made)⟩, fun level given => ?_⟩
  cases level with
  | none => rfl
  | some level =>
    refine ensures_ask.mpr ⟨fun s e => ?_, fun s _ => sinksOf_concat_of_none rfl⟩
    have same : sinksOf (before ++ [⟨.setSinkLevel sink level, s, .error e⟩]) = sinksOf before :=
      sinksOf_concat_of_none rfl
    rw [← same] at made
    exact ⟨same, .level given made ⟨before, s, rfl⟩⟩

/-- Making a sink makes it after all others, or it is the sink's own fault. -/
theorem make_ensures (table : SinkTable S) (d : Declaration) (kind : Kind)
    (before : List (Attempt σ S P L)) :
    (make table d kind : Plan S P L S).Ensures before
      (fun sink after => sinksOf after = sinksOf before ++ [(d.name, sink)]) fun e after =>
        sinksOf before ⊆ sinksOf after ∧ MakingFault d kind after e := by
  rw [make, Ensures, meets_bind]
  refine (prepare_ensures d kind before).imp (fun _ after same => ?_) fun e after fault => ?_
  rotate_left
  · rw [fault.1]
    exact ⟨List.Subset.refl _, fault.2⟩
  rw [meets_bind, ensures_ask, ← same]
  -- Up to here no sink has been made; if the call is answered, the new one is the last.
  refine ⟨fun s e => ⟨?_, .sink ⟨after, s, rfl⟩⟩, fun s sink => ?_⟩
  · rw [sinksOf_append]
    exact List.subset_append_left _ _
  rw [meets_bind]
  refine (assignLevel_ensures kind ?_).imp (fun _ last same => ?_) fun e last fault => ?_
  · rw [sinksOf_append]
    exact List.mem_append_right _ (List.mem_singleton_self _)
  · rw [meets_bind, meets_report, meets_pure, same, sinksOf_append]
    rfl
  · rw [fault.1, sinksOf_append]
    exact ⟨List.subset_append_left _ _, fault.2⟩

end Making

/-! ## All sinks -/

/-- A sink of the walk that has not been made, when those before it have. -/
def FollowFault (steps : List Step) (before after : List (Attempt σ S P L)) (e : SetupError) :
    Prop :=
  ∃ front d kind back cause, makes steps = front ++ (d, kind) :: back ∧
    e = .within (.sink d.name) cause ∧
    (namesOf before ++ front.map fun m => m.1.name) ⊆ namesOf after ∧ MakingFault d kind after cause

/-- Following the steps of a walk makes its sinks, up to one that is at fault. -/
theorem follow_ensures (table : SinkTable S) (steps : List Step) (before : List (Attempt σ S P L)) :
    (follow table steps : Plan S P L (SinkTable S)).Ensures before
      (fun _ after => namesOf after = namesOf before ++ (makes steps).map fun m => m.1.name)
      fun e after => FollowFault steps before after e := by
  induction steps generalizing table before with
  | nil => exact (List.append_nil _).symm
  | cons step steps ih =>
    cases step with
    | enter name depth => exact ih table before
    | make d kind =>
      rw [follow, Ensures, meets_bind, Plan.within, meets_mapError]
      refine (make_ensures table d kind before).imp (fun sink mid grown => ?_) fun e after fault => ?_
      · have names := namesOf_of_sinksOf grown
        refine (ih _ mid).imp (fun _ after same => ?_) ?_
        · rw [same, names, List.append_assoc]
          rfl
        · rintro e after ⟨front, d', kind', back, cause, split, same, made, fault⟩
          rw [names, List.append_assoc] at made
          exact ⟨(d, kind) :: front, d', kind', back, cause, congrArg _ split, same, made, fault⟩
      · obtain ⟨made, fault⟩ := fault
        refine ⟨[], d, kind, makes steps, e, rfl, rfl, ?_, fault⟩
        rw [List.map_nil, List.append_nil]
        exact List.map_subset _ made

/-- Either all declared sinks are made, or `Unmade` tells why they are not. -/
theorem resolve_ensures (doc : Document.Table) :
    (resolve doc : Plan S P L (SinkTable S)).Ensures ([] : List (Attempt σ S P L))
      (fun _ _ => True) fun e after => Unmade doc after e := by
  rw [resolve, Ensures, meets_bind, meets_ofSetup]
  refine ⟨fun e unread => .unlisted unread, fun found present => ?_⟩
  cases found with
  | none => exact meets_fail.mpr (.absent present)
  | some entries =>
    simp only [meets_bind, meets_ofSetup]
    refine ⟨fun e refused => .undeclared present refused, fun ds collected => ?_⟩
    have kept := walk_sound ds
    rcases walked : walk ds with ⟨p, stop⟩
    rw [walked] at kept
    obtain ⟨sound, first⟩ : p.Sound ds ∧ TargetsFirst (targetsOf ds) p.made := kept
    refine (follow_ensures [] p.steps []).imp (fun table after made => ?_) ?_
    · have made : namesOf after = p.made := made.trans sound.makesMade
      cases stop with
      | none => trivial
      | some e =>
        obtain ⟨-, -, stopped⟩ := walk_stopped walked
        refine meets_fail.mpr ?_
        cases stopped with
        | cycle => exact .cycle present collected walked made
        | undecodable mem unread => exact .own present collected mem (.undecodable unread)
        | unknownTarget mem decoded listed before unknown =>
          rw [← made] at before
          exact .own present collected mem (.unknownTarget decoded listed before unknown)
    · rintro e after ⟨front, d, kind, back, cause, split, rfl, made, fault⟩
      obtain ⟨found, decoded⟩ := sound.makesDecoded (d, kind) (by rw [split]; simp)
      refine .own present collected (find?_eq_some found).1 ?_
      refine .making decoded (fun t target => ?_) fault
      -- The sink stands behind its targets in what the walk has made.
      exact made (List.mem_append_right _ (sound.targets_before first split target))

/-- **The error names the sink that is at fault.** When the declared sinks cannot be made, their
references go round in a cycle, or the error is that of one declared sink, in the context of this
sink alone: no sink that forwards to it, and through which it was reached, adds to the error. The
fault is the sink's own, and its targets before the fault have been made. -/
theorem resolve_error_names_faulty_sink {doc : Document.Table} {entries : List Document.Table}
    {ds : List Declaration} (present : Document.tableArray doc "sink" = .ok (some entries))
    (collected : Declaration.collect [] entries = .ok ds) (b : Backend σ S P L) (s : σ)
    {e : SetupError} (failed : ((resolve doc).run b s).result = .error e) :
    (∃ chain, e = .sinkCycle chain) ∨
      ∃ d ∈ ds, ∃ cause, e = .within (.sink d.name) cause ∧
        OwnFault ds d ((resolve doc).attempts b s) cause ∧
        (cause.Bare ∨
          ∃ last ∈ ((resolve doc).attempts b s).getLast?, last.error? = some cause) := by
  have unmade : Unmade doc ((resolve doc).attempts b s) e :=
    ((resolve_ensures doc).run b s).1 e failed
  cases unmade with
  | unlisted unread => exact absurd (unread.symm.trans present) Setup.error_ne_ok
  | absent missing => cases missing.symm.trans present
  | undeclared present' refused =>
    cases present'.symm.trans present
    exact absurd (refused.symm.trans collected) Setup.error_ne_ok
  | own present' collected' mem fault =>
    cases present'.symm.trans present
    cases collected'.symm.trans collected
    exact .inr ⟨_, mem, _, rfl, fault, fault.bare_or_refused⟩
  | cycle => exact .inl ⟨_, rfl⟩

/-- A fan above a fan above a file that the backend refuses to make: the file is named alone, and the
console that the inner fan lists before it has been made. -/
theorem refused_file_is_named_alone :
    let doc : Document.Table :=
      [("sink", .array [
        .table [("name", .text "all"), ("type", .text "dist_sink_st"),
          ("sinks", .array [.text "inner"])],
        .table [("name", .text "inner"), ("type", .text "dist_sink_mt"),
          ("sinks", .array [.text "console", .text "file"])],
        .table [("name", .text "file"), ("type", .text "basic_file_sink_mt"),
          ("filename", .text "app.log")],
        .table [("name", .text "console"), ("type", .text "stdout_sink_st")]])]
    let plan : Plan Journal.Item Journal.Item Journal.Item (SinkTable Journal.Item) := resolve doc
    let b := Journal.backend ["create_sink:file"]
    let e : SetupError := .within (.sink "file") (.reported "injected create_sink:file")
    (plan.run b .empty).result = .error e ∧ namesOf (plan.attempts b .empty) = ["console"] ∧
      ∃ entries ds, Document.tableArray doc "sink" = .ok (some entries) ∧
        Declaration.collect [] entries = .ok ds ∧
        ((∃ chain, e = .sinkCycle chain) ∨
          ∃ d ∈ ds, ∃ cause, e = .within (.sink d.name) cause ∧
            OwnFault ds d (plan.attempts b .empty) cause ∧
            (cause.Bare ∨
              ∃ last ∈ (plan.attempts b .empty).getLast?, last.error? = some cause)) := by
  intro doc plan b e
  have failed : (plan.run b .empty).result = .error e := rfl
  exact ⟨failed, rfl, _, _, rfl, rfl, resolve_error_names_faulty_sink rfl rfl b .empty failed⟩

end Sink

end LogTopology
