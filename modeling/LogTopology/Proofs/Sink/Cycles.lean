import LogTopology.Proofs.Document.Field
import LogTopology.Proofs.Document.Section
import LogTopology.Proofs.Sink.Faults
/-!
# Reported cycles

A report of a cycle shows the sinks that refer to one another in a circle. `CycleReport` says what may
be read off it: the chain ends where it begins and passes no other sink twice, every sink on it is a
fan whose own list names the next, and none of them has been made. The sinks through which the cycle
was reached are not on it. `cycle_report_sound` starts from the text of the error, which no other
error of the sinks begins with.

Which of several cycles is reported is not told.

The chain is read off the path of the walk: when a sink on the path is met again, the part from
there on is the cycle, each sink on it forwards to the next, and none of them is made, since sinks
are made when they are left. To say that an error is a report at all, its text is looked at, so the
other errors of the stage are listed with the texts that they begin with (`OpensOtherwise`).
-/

namespace LogTopology.Sink

open Setup (FailsWith)

variable {σ S P L : Type}

/-! ## Fans and their lists -/

/-- The declared sink of one name is a fan whose list names another. -/
def Lists (ds : List Declaration) (a b : String) : Prop :=
  ∃ d ∈ ds, d.name = a ∧ d.family = .dist ∧
    ∃ names, Document.optional .strings d.table "sinks" = .ok (some names) ∧ b ∈ names

/-- Only fans have targets, and these are the names of their list. -/
theorem listed_of_mem_targets {f : Family} {t : Document.Table} {kind : Kind} {target : String}
    (decoded : Kind.decode f t = .ok kind) (mem : target ∈ kind.targets) :
    f = .dist ∧
      ∃ names, Document.optional .strings t "sinks" = .ok (some names) ∧ target ∈ names := by
  have fan : f = .dist := by
    rw [← (decode_ends f t).of_ok decoded]
    cases kind with
    | dist => rfl
    | _ => cases mem
  subst fan
  obtain ⟨names, read, rfl⟩ := Setup.map_eq_ok.mp decoded
  exact ⟨rfl, names, Document.required_eq_ok.mp read, mem⟩

/-- The targets of a declared sink are listed by it. -/
theorem lists_of_mem_targetsOf {ds : List Declaration} {a b : String} (mem : b ∈ targetsOf ds a) :
    Lists ds a b := by
  obtain ⟨d, here, name, target⟩ := forwardsTo_of_mem_targetsOf mem
  cases decoded : Kind.decode d.family d.table with
  | error e => simp [Declaration.targets, decoded, Except.toOption] at target
  | ok kind =>
    have target : b ∈ kind.targets := by
      simpa [Declaration.targets, decoded, Except.toOption] using target
    obtain ⟨fan, listed⟩ := listed_of_mem_targets decoded target
    exact ⟨d, here, name, fan, listed⟩

/-! ## Circles -/

/-- In a circle everything leads to everything. -/
theorem transGen_of_circle {α : Type} {R : α → α → Prop} {n : α} {around : List α}
    (circle : (n :: around ++ [n]).IsChain R) :
    ∀ a ∈ n :: around, ∀ b ∈ n :: around, Relation.TransGen R a b := by
  -- Along a chain of a transitive relation the first is related to all others.
  have reaches : (n :: (around ++ [n])).IsChain (Relation.TransGen R) :=
    circle.imp fun _ _ => .single
  have back : Relation.TransGen R n n := reaches.rel_cons (by simp)
  have fore : ∀ b ∈ n :: around, Relation.TransGen R n b := by
    refine List.forall_mem_cons.mpr ⟨back, fun b mem => ?_⟩
    exact reaches.rel_cons (List.mem_append_left _ mem)
  have home : ∀ a ∈ n :: around, Relation.TransGen R a n := by
    refine List.forall_mem_cons.mpr ⟨back, fun a mem => ?_⟩
    obtain ⟨before, after, rfl⟩ := List.append_of_mem mem
    rw [List.append_assoc, List.cons_append, ← List.cons_append] at reaches
    exact (List.isChain_append.mp reaches).2.1.rel_cons (by simp)
  exact fun a ha b hb => (home a ha).trans (fore b hb)

/-- What a report shows of a cycle that begins with `n`, passes the sinks `around`, and ends with `n`
again. -/
structure CycleReport (ds : List Declaration) (attempts : List (Attempt σ S P L)) (n : String)
    (around : List String) : Prop where
  once : (n :: around).Nodup
  fans : ∀ m ∈ n :: around, ∃ d ∈ ds, d.name = m ∧ d.family = .dist
  listed : (n :: around ++ [n]).IsChain (Lists ds)
  unmade : ∀ m ∈ n :: around, m ∉ namesOf attempts
  /-- Every sink of the report leads to every other, and back to itself. -/
  round : ∀ a ∈ n :: around, ∀ b ∈ n :: around, Relation.TransGen (Lists ds) a b
  /-- The sinks that were worked on lead into the cycle first, and then go round it. -/
  approach : ∃ lead, (walk ds).1.path = lead ++ n :: around ∧ (lead ++ [n]).IsChain (Lists ds) ∧
    ∀ m ∈ lead, m ∉ n :: around

/-- When the walk stops at a cycle, the report shows a cycle of sinks that have not been made. -/
theorem cycleReport_of_stop {ds : List Declaration} {p : Progress} {chain : List String}
    {attempts : List (Attempt σ S P L)} (stopped : walk ds = (p, some (.sinkCycle chain)))
    (made : namesOf attempts = p.made) :
    ∃ n around, chain = n :: around ++ [n] ∧ CycleReport ds attempts n around := by
  obtain ⟨sound, -, stop⟩ := walk_stopped stopped
  cases stop with
  | @cycle lead around n path leads =>
  have circle := sound.circle_of_path path leads
  have listed : (n :: around ++ [n]).IsChain (Lists ds) :=
    circle.imp fun _ _ => lists_of_mem_targetsOf
  have onPath : ∀ m ∈ n :: around, m ∈ p.path := fun m mem => by
    rw [path]
    exact List.mem_append_right _ mem
  have distinct := sound.pathOnce
  have chained := sound.chain
  rw [path] at distinct
  rw [path, List.append_cons] at chained
  obtain ⟨-, once, apart⟩ := List.nodup_append.mp distinct
  have round := transGen_of_circle listed
  refine ⟨n, around, rfl, once, fun m mem => ?_, listed, fun m mem was => ?_, round, lead, ?_⟩
  · obtain ⟨_, ⟨d, declared, name, fan, -⟩, -⟩ :=
      Relation.TransGen.head'_iff.mp (round m mem m mem)
    exact ⟨d, declared, name, fan⟩
  · -- A sink on the path is marked as worked on, and a made one as done.
    rw [made] at was
    have marked := (sound.active m).mpr (onPath m mem)
    rw [(sound.done m).mpr was] at marked
    cases marked
  · rw [stopped]
    refine ⟨path, ?_, fun m mem on => apart m mem m on rfl⟩
    exact (List.isChain_append.mp chained).1.imp fun _ _ => lists_of_mem_targetsOf

/-! ## Texts -/

/-- The text with which a report of a cycle begins. -/
def cycleOpening : String :=
  "Sink reference cycle detected: "

/-- The texts with which the other errors of the sinks begin. -/
def otherOpenings : List String :=
  ["'", "No", "One", "Sink '"]

/-- The error is no report of a cycle, as its text shows. -/
def OpensOtherwise (e : SetupError) : Prop :=
  ∃ opening ∈ otherOpenings, opening.toList <+: e.message.toList

/-- What begins a text is a part of it at the front. -/
theorem prefix_of_eq_append {text opening rest : String} (same : text = opening ++ rest) :
    opening.toList <+: text.toList := by
  rw [same, String.toList_append]
  exact List.prefix_append _ _

/-- An error that opens otherwise is no report of a cycle. -/
theorem OpensOtherwise.not_cycle {e : SetupError} (otherwise : OpensOtherwise e) (rest : String) :
    e.message ≠ cycleOpening ++ rest := by
  intro said
  obtain ⟨opening, mem, opens⟩ := otherwise
  have differ : ∀ o ∈ otherOpenings,
      ¬ (o.toList <+: cycleOpening.toList ∨ cycleOpening.toList <+: o.toList) := by decide
  exact differ opening mem (List.prefix_or_prefix_of_prefix opens (prefix_of_eq_append said))

/-- An error that speaks of a sink by its name begins with the name. -/
theorem opensOtherwise_of_named {e : SetupError} {name rest : String}
    (said : e.message = "Sink '" ++ name ++ rest) : OpensOtherwise e := by
  rw [String.append_assoc] at said
  exact ⟨"Sink '", by decide, prefix_of_eq_append said⟩

/-- What is told in the context of a sink opens with this context. -/
theorem opensOtherwise_within (name : String) (cause : SetupError) :
    OpensOtherwise (.within (.sink name) cause) := by
  have said : (SetupError.within (.sink name) cause).message =
      "Sink '" ++ name ++ ("' error" ++ (":\n > " ++ cause.message)) := by
    rw [SetupError.message_within, ← String.append_assoc, ← String.append_assoc]
    rfl
  exact opensOtherwise_of_named said

/-- What keeps an entry from being taken for a declaration is no cycle. -/
theorem ofEntry_opensOtherwise (taken : List String) (entry : Document.Table) :
    FailsWith OpensOtherwise (Declaration.ofEntry taken entry) := by
  unfold Declaration.ofEntry
  split
  · exact ⟨"One", by decide, by decide⟩
  split
  · exact opensOtherwise_of_named rfl
  rename_i name _ _ type _
  have parsed : FailsWith OpensOtherwise ((Family.parse type).within (.sink name)) := by
    cases Family.parse type with
    | error cause => exact opensOtherwise_within name cause
    | ok family => trivial
  refine parsed.bind fun family _ => ?_
  split
  · exact opensOtherwise_of_named rfl
  · trivial

/-- No error about declarations reads like the report of a cycle. -/
theorem collect_opensOtherwise (taken : List String) (entries : List Document.Table) :
    FailsWith OpensOtherwise (Declaration.collect taken entries) := by
  induction entries generalizing taken with
  | nil => trivial
  | cons entry entries ih =>
    refine (ofEntry_opensOtherwise taken entry).bind fun d _ => ?_
    exact (ih (taken ++ [d.name])).bind fun _ _ => trivial

/-! ## Reports -/

/-- **A reported cycle is one.** Whatever the backend, an error of the sinks that begins as a report of
a cycle is one, and the chain that it shows is a cycle of declared fans, of which none has been made;
sinks that only lead into the cycle are not on it. -/
theorem cycle_report_sound (doc : Document.Table) (b : Backend σ S P L) (s : σ) {e : SetupError}
    (failed : ((resolve doc).run b s).result = .error e) {rest : String}
    (said : e.message = cycleOpening ++ rest) :
    ∃ entries ds n around, Document.tableArray doc "sink" = .ok (some entries) ∧
      Declaration.collect [] entries = .ok ds ∧ e = .sinkCycle (n :: around ++ [n]) ∧
      CycleReport ds ((resolve doc).attempts b s) n around := by
  have unmade : Unmade doc ((resolve doc).attempts b s) e :=
    ((resolve_ensures doc).run b s).1 e failed
  cases unmade with
  | unlisted unread =>
    obtain ⟨rfl, -⟩ := Document.misshapen_of_tableArray unread
    exact absurd said (OpensOtherwise.not_cycle ⟨"'", by decide, by decide⟩ rest)
  | absent => exact absurd said (OpensOtherwise.not_cycle ⟨"No", by decide, by decide⟩ rest)
  | undeclared _ refused =>
    have otherwise := (collect_opensOtherwise _ _).of_error refused
    exact absurd said (otherwise.not_cycle rest)
  | own => exact absurd said ((opensOtherwise_within _ _).not_cycle rest)
  | cycle present collected stopped made =>
    obtain ⟨n, around, rfl, report⟩ := cycleReport_of_stop stopped made
    exact ⟨_, _, n, around, present, collected, rfl, report⟩

/-- A fan that leads into a cycle of three, each of which also writes to a console: the console has
been made when the cycle is met, and the report begins behind the fan that leads into it. -/
theorem cycle_of_three_reported :
    let fan (name : String) (sinks : List String) : Document.Value :=
      .table [("name", .text name), ("type", .text "dist_sink_st"),
        ("sinks", .array (sinks.map .text))]
    let doc : Document.Table :=
      [("sink", .array [fan "entry" ["x"], fan "x" ["console", "y"], fan "y" ["console", "z"],
        fan "z" ["x", "console"],
        .table [("name", .text "console"), ("type", .text "stdout_sink_mt")]])]
    let plan : Plan Journal.Item Journal.Item Journal.Item (SinkTable Journal.Item) := resolve doc
    let b := Journal.backend []
    let e : SetupError := .sinkCycle ["x", "y", "z", "x"]
    (plan.run b .empty).result = .error e ∧ e.message = cycleOpening ++ "x -> y -> z -> x" ∧
      namesOf (plan.attempts b .empty) = ["console"] ∧
      ∃ entries ds n around, Document.tableArray doc "sink" = .ok (some entries) ∧
        Declaration.collect [] entries = .ok ds ∧ e = .sinkCycle (n :: around ++ [n]) ∧
        CycleReport ds (plan.attempts b .empty) n around := by
  intro fan doc plan b e
  have failed : (plan.run b .empty).result = .error e := rfl
  have said : e.message = cycleOpening ++ "x -> y -> z -> x" := by decide
  exact ⟨failed, said, rfl, cycle_report_sound doc b .empty failed said⟩

end LogTopology.Sink
