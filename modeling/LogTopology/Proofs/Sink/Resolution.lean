import LogTopology.Proofs.Plan.Journal
import LogTopology.Proofs.Setup
import LogTopology.Proofs.Sink.Walk
import LogTopology.Sink.Resolve
/-!
# Making the declared sinks

What the plan of the sinks asks of a backend, for declarations whose own fields are in order. It
arrives exactly when every name that a sink forwards to is declared and no sink forwards to itself
through others, and then the calls fall into one segment for each declaration, in depth-first
post-order. A segment hands the sink the handles of its targets, which the table has by then, and
the table is the list of the handles that the segments were answered with.

A backend that refuses a call is not considered here.

The walk decides everything before the first call: it comes to a list of steps, and the plan follows
them. `follow_yields` goes through the steps with the table so far, where the targets of the next
sink are known because the walk has put them first. `BuiltInOrder` collects what is known of the
calls and of the table in the end.
-/

namespace LogTopology.Sink

variable {σ S P L : Type}

/-! ## Segments -/

/-- All fields of a declaration that are read when its sink is made have values that they may
have. -/
structure Declaration.Valid (d : Declaration) : Prop where
  kind : ∃ kind, Kind.decode d.family d.table = .ok kind
  directory : ∃ wanted, Document.optionalOr .flag d.table "create_parent_dir" false = .ok wanted
  level : ∃ level, d.level = .ok level

/-- The call that makes the directory of a sink's file, where the declaration asks for it. -/
def directoryCalls (d : Declaration) (kind : Kind) : List (Answered S P L) :=
  match Document.optionalOr .flag d.table "create_parent_dir" false, kind.directory? with
  | .ok true, some path => [⟨.createDirectory path, ()⟩]
  | _, _ => []

/-- The call that sets the level of a sink, where the declaration gives one. -/
def levelCalls (d : Declaration) (sink : S) : List (Answered S P L) :=
  match d.level with
  | .ok (some level) => [⟨.setSinkLevel sink level, ()⟩]
  | _ => []

/-- The calls that make one sink, answered with its handle. -/
def sinkCalls (d : Declaration) (kind : Kind) (forwards : List S) (sink : S) :
    List (Answered S P L) :=
  directoryCalls d kind ++ ⟨.createSink d.name kind forwards, sink⟩ :: levelCalls d sink

/-- The segment of an entry of the table: the declaration of its name makes the sink, with the
handles that the table has for the targets, in their order and with repetitions. -/
def Segment (ds : List Declaration) (table : SinkTable S) (e : String × S)
    (cs : List (Answered S P L)) : Prop :=
  ∃ d kind forwards, Declaration.find? ds e.1 = some d ∧ Kind.decode d.family d.table = .ok kind ∧
    kind.targets.map (fun t => table.lookup t) = forwards.map some ∧
      cs = sinkCalls d kind forwards e.2

/-- The calls `cs` have made the declared sinks, and `table` is what they have come to. -/
structure BuiltInOrder (ds : List Declaration) (cs : List (Answered S P L)) (table : SinkTable S) :
    Prop where
  /-- The names of the table are the depth-first post-order of the declarations. -/
  postOrder : PostOrder (targetsOf ds) [] (ds.map Declaration.name) (table.map Prod.fst)
  once : (table.map Prod.fst).Nodup
  all : ∀ name, name ∈ table.map Prod.fst ↔ name ∈ ds.map Declaration.name
  targetsFirst : TargetsFirst (targetsOf ds) (table.map Prod.fst)
  /-- The calls that make sinks, by name and handle, are the table. -/
  created : cs.filterMap Answered.sink? = table
  found : ∀ e ∈ table, table.lookup e.1 = some e.2
  segments : ∃ segments, cs = segments.flatten ∧ List.Forall₂ (Segment ds table) table segments

/-! ## One sink -/

/-- Preparing the file of a sink asks for its directory or for nothing, and goes well. -/
theorem prepare_yields {d : Declaration} {kind : Kind} (valid : d.Valid)
    {cs : List (Answered S P L)} {r : Setup Unit} (h : (prepare d kind).Yields cs r) :
    cs = directoryCalls d kind ∧ r = .ok () := by
  obtain ⟨wanted, hw⟩ := valid.directory
  rw [prepare, hw, Plan.yields_ofSetup_bind_ok] at h
  cases wanted with
  | false =>
    obtain ⟨rfl, rfl⟩ := Plan.yields_pure.mp h
    exact ⟨by simp [directoryCalls, hw], rfl⟩
  | true =>
    cases dir : kind.directory? with
    | none =>
      simp only [dir] at h
      obtain ⟨rfl, rfl⟩ := Plan.yields_pure.mp h
      exact ⟨by simp [directoryCalls, hw, dir], rfl⟩
    | some path =>
      simp only [dir] at h
      obtain ⟨⟨⟩, rfl, rfl⟩ := Plan.yields_ask.mp h
      exact ⟨by simp [directoryCalls, hw, dir], rfl⟩

/-- Assigning the level of a sink sets it or asks for nothing, and goes well. -/
theorem assignLevel_yields {d : Declaration} {sink : S} (valid : d.Valid)
    {cs : List (Answered S P L)} {r : Setup Unit} (h : (assignLevel d sink).Yields cs r) :
    cs = levelCalls d sink ∧ r = .ok () := by
  obtain ⟨level, hl⟩ := valid.level
  rw [assignLevel, hl, Plan.yields_ofSetup_bind_ok] at h
  cases level with
  | none =>
    obtain ⟨rfl, rfl⟩ := Plan.yields_pure.mp h
    exact ⟨by simp [levelCalls, hl], rfl⟩
  | some level =>
    obtain ⟨⟨⟩, rfl, rfl⟩ := Plan.yields_ask.mp h
    exact ⟨by simp [levelCalls, hl], rfl⟩

/-- Making a sink makes the calls of its segment and ends with its handle. -/
theorem make_yields {table : SinkTable S} {d : Declaration} {kind : Kind} (valid : d.Valid)
    {cs : List (Answered S P L)} {r : Setup S} (h : (make table d kind).Yields cs r) :
    ∃ sink, cs = sinkCalls d kind (kind.targets.filterMap fun t => table.lookup t) sink ∧
      r = .ok sink := by
  rw [make] at h
  obtain ⟨_, first, rest, prepared, h, hcs⟩ := Plan.yields_bind_sure
    (fun _ _ failed => nomatch (prepare_yields valid failed).2) h
  obtain ⟨sink, rest, h, hrest⟩ := Plan.yields_ask_bind h
  obtain ⟨_, second, last, assigned, h, hlast⟩ := Plan.yields_bind_sure
    (fun _ _ failed => nomatch (assignLevel_yields valid failed).2) h
  have h := Plan.yields_report_bind h
  obtain ⟨rfl, rfl⟩ := Plan.yields_pure.mp h
  refine ⟨sink, ?_, rfl⟩
  rw [hcs, (prepare_yields valid prepared).1, hrest, hlast, (assignLevel_yields valid assigned).1,
    List.append_nil]
  rfl

/-! ## All sinks -/

/-- A segment makes the sink of its entry and no other. -/
theorem Segment.created {ds : List Declaration} {table : SinkTable S} {e : String × S}
    {cs : List (Answered S P L)} (h : Segment ds table e cs) :
    cs.filterMap Answered.sink? = [e] := by
  obtain ⟨d, kind, forwards, found, _, _, rfl⟩ := h
  have directory : (directoryCalls d kind : List (Answered S P L)).filterMap Answered.sink? = [] := by
    rw [directoryCalls]
    split <;> rfl
  have level : (levelCalls d e.2 : List (Answered S P L)).filterMap Answered.sink? = [] := by
    rw [levelCalls]
    split <;> rfl
  rw [sinkCalls, List.filterMap_append, directory, List.nil_append, List.filterMap_cons, level]
  simp only [Answered.sink?, (find?_eq_some found).2]

/-- Segments one after the other make the sinks of their entries. -/
theorem created_flatten {ds : List Declaration} {table entries : SinkTable S}
    {segments : List (List (Answered S P L))}
    (h : List.Forall₂ (Segment ds table) entries segments) :
    segments.flatten.filterMap Answered.sink? = entries := by
  induction h with
  | nil => rfl
  | cons first _ ih =>
    rw [List.flatten_cons, List.filterMap_append, first.created, ih]
    rfl

/-- Names that a table has are found in it, and go on being found when it grows. -/
theorem map_lookup_append {table more : SinkTable S} {names : List String}
    (known : ∀ t ∈ names, t ∈ table.map Prod.fst) :
    names.map (fun t => (table ++ more).lookup t) =
      (names.filterMap fun t => table.lookup t).map some := by
  induction names with
  | nil => rfl
  | cons t names ih =>
    obtain ⟨sink, hs⟩ := exists_lookup_of_mem_names (known t List.mem_cons_self)
    have rest := ih fun t' ht' => known t' (List.mem_cons_of_mem _ ht')
    rw [List.map_cons, rest, List.lookup_append, List.filterMap_cons, hs]
    rfl

/-- Following the steps of a walk: the table grows by the sinks that the steps make, and every one
of them has its segment. -/
theorem follow_yields {ds : List Declaration} {steps : List Step}
    (decoded : ∀ m ∈ makes steps, m.1.Valid ∧ Declaration.find? ds m.1.name = some m.1 ∧
      Kind.decode m.1.family m.1.table = .ok m.2)
    {table : SinkTable S}
    (known : ∀ before m after, makes steps = before ++ m :: after →
      ∀ t ∈ m.2.targets, t ∈ table.map Prod.fst ++ before.map fun m => m.1.name)
    {cs : List (Answered S P L)} {r : Setup (SinkTable S)} (h : (follow table steps).Yields cs r) :
    ∃ new segments, r = .ok (table ++ new) ∧
      new.map Prod.fst = (makes steps).map (fun m => m.1.name) ∧ cs = segments.flatten ∧
        List.Forall₂ (Segment ds (table ++ new)) new segments := by
  induction steps generalizing table cs with
  | nil =>
    obtain ⟨rfl, rfl⟩ := Plan.yields_pure.mp h
    exact ⟨[], [], by rw [List.append_nil], rfl, rfl, .nil⟩
  | cons step steps ih =>
    cases step with
    | enter name depth => exact ih decoded known (Plan.yields_report_bind h)
    | make d kind =>
      obtain ⟨valid, found, kindOf⟩ := decoded (d, kind) List.mem_cons_self
      have made {first : List (Answered S P L)} {o : Setup S}
          (hm : ((make table d kind).within (.sink d.name)).Yields first o) :
          ∃ sink, first = sinkCalls d kind (kind.targets.filterMap fun t => table.lookup t) sink ∧
            o = .ok sink := by
        obtain ⟨o', ho', rfl⟩ := Plan.yields_mapError.mp hm
        obtain ⟨sink, hcs, rfl⟩ := make_yields valid ho'
        exact ⟨sink, hcs, rfl⟩
      obtain ⟨sink, first, rest, hm, h, hcs⟩ := Plan.yields_bind_sure
        (fun _ _ failed => by
          obtain ⟨_, _, absurd⟩ := made failed
          cases absurd) h
      obtain ⟨_, hfirst, same⟩ := made hm
      cases same
      -- The sink that was just made is known to all that follow.
      have knownAfter : ∀ before m after, makes steps = before ++ m :: after →
          ∀ t ∈ m.2.targets, t ∈ (table ++ [(d.name, sink)]).map Prod.fst ++
            before.map fun m => m.1.name := by
        intro before m after split t ht
        have := known ((d, kind) :: before) m after (congrArg ((d, kind) :: ·) split) t ht
        simpa using this
      obtain ⟨new, segments, hr, names, hrest, segs⟩ :=
        ih (fun m hm => decoded m (List.mem_cons_of_mem _ hm)) knownAfter h
      rw [List.append_assoc, List.singleton_append] at hr segs
      refine ⟨(d.name, sink) :: new, first :: segments, hr, ?_, ?_, .cons ?_ segs⟩
      · exact congrArg (d.name :: ·) names
      · rw [hcs, hrest, List.flatten_cons]
      · refine ⟨d, kind, _, found, kindOf, map_lookup_append fun t ht => ?_, hfirst⟩
        simpa using known [] (d, kind) (makes steps) rfl t ht

/-- Entries that pass the first look have names of their own, which differ from those taken
before. -/
theorem collect_distinct {taken : List String} {entries : List Document.Table}
    {ds : List Declaration} (distinct : taken.Nodup)
    (h : Declaration.collect taken entries = .ok ds) :
    (taken ++ ds.map Declaration.name).Nodup := by
  induction entries generalizing taken ds with
  | nil =>
    cases h
    simpa using distinct
  | cons entry entries ih =>
    obtain ⟨d, hd, h⟩ := Setup.bind_eq_ok.mp h
    obtain ⟨rest, hrest, h⟩ := Setup.bind_eq_ok.mp h
    cases h
    have fresh : d.name ∉ taken := by
      rw [Declaration.ofEntry] at hd
      split at hd
      · cases hd
      split at hd
      · cases hd
      obtain ⟨family, _, hd⟩ := Setup.bind_eq_ok.mp hd
      split at hd
      · cases hd
      · cases hd
        assumption
    have grown : (taken ++ [d.name]).Nodup := by
      rw [List.nodup_append]
      refine ⟨distinct, by simp, fun a ha b hb => ?_⟩
      rintro rfl
      exact fresh (List.mem_singleton.mp hb ▸ ha)
    simpa using ih grown hrest

/-- The plan of the sinks either arrives with the sinks built in order or meets a fault of the
references. -/
theorem resolve_yields {doc : Document.Table} {entries : List Document.Table}
    {ds : List Declaration} (present : Document.tableArray doc "sink" = .ok (some entries))
    (collected : Declaration.collect [] entries = .ok ds) (valid : ∀ d ∈ ds, d.Valid)
    {cs : List (Answered S P L)} {r : Setup (SinkTable S)} (h : (resolve doc).Yields cs r) :
    (∃ table, r = .ok table ∧ BuiltInOrder ds cs table ∧ Closed ds ∧ Acyclic ds) ∨
      ∃ e, r = .error e ∧ ¬ (Closed ds ∧ Acyclic ds) := by
  rw [resolve, present, Plan.yields_ofSetup_bind_ok] at h
  simp only [collected, Plan.yields_ofSetup_bind_ok] at h
  have outcome := walk_outcome ds
  generalize walk ds = visited at h outcome
  obtain ⟨p, _ | e⟩ := visited
  · left
    -- The walk has gone through: it makes every declared sink, and each behind its targets.
    obtain ⟨sound, _, order⟩ := outcome
    have first := order.targetsFirst .nil
    have decoded : ∀ m ∈ makes p.steps, m.1.Valid ∧ Declaration.find? ds m.1.name = some m.1 ∧
        Kind.decode m.1.family m.1.table = .ok m.2 := fun m hm =>
      have ⟨found, kindOf⟩ := sound.makesDecoded m hm
      ⟨valid m.1 (find?_eq_some found).1, found, kindOf⟩
    have known : ∀ before m after, makes p.steps = before ++ m :: after →
        ∀ t ∈ m.2.targets, t ∈ ([] : SinkTable S).map Prod.fst ++ before.map fun m => m.1.name :=
      fun _ _ _ split _ target => sound.targets_before first split target
    -- As all targets are known no step fails, and the plan goes on behind them.
    obtain ⟨table, followed, rest, hf, h, hcs⟩ := Plan.yields_bind_sure
      (fun _ _ failed => by
        obtain ⟨_, _, absurd, _⟩ := follow_yields decoded known failed
        cases absurd) h
    obtain ⟨new, segments, same, names, hfollowed, segs⟩ := follow_yields decoded known hf
    cases same
    rw [List.nil_append] at h segs
    have h := Plan.yields_report_bind h
    obtain ⟨rfl, rfl⟩ := Plan.yields_pure.mp h
    rw [List.append_nil] at hcs
    have madeNames : new.map Prod.fst = p.made := names.trans sound.makesMade
    have references := closed_and_acyclic_of_postOrder order
      (by simpa using collect_distinct List.nodup_nil collected) sound.madeDeclared
    refine ⟨new, rfl, ?_, references⟩
    constructor
    · rw [madeNames]
      exact order
    · rw [madeNames]
      exact sound.madeOnce
    · intro name
      rw [madeNames]
      exact ⟨sound.madeDeclared name, order.mem_of_root name⟩
    · rw [madeNames]
      exact first
    · rw [hcs, hfollowed]
      exact created_flatten segs
    · intro e he
      exact lookup_of_mem (madeNames ▸ sound.madeOnce) he
    · exact ⟨segments, hcs.trans hfollowed, segs⟩
  · right
    -- The walk has stopped, which it does for a fault of the references only.
    have faulty : ¬ (Closed ds ∧ Acyclic ds) := fun faultless =>
      outcome ⟨fun d hd => (valid d hd).kind, faultless.1, faultless.2⟩
    rcases Plan.yields_bind.mp h with ⟨e', _, hr⟩ | ⟨_, _, _, _, h, _⟩
    · exact ⟨e', hr, faulty⟩
    · exact ⟨e, (Plan.yields_fail.mp h).2, faulty⟩

/-- **The declared sinks are made in depth-first post-order.** For declarations whose own fields are
in order and a backend that never fails, the plan of the sinks arrives exactly when the references
are closed and acyclic, and the sinks are then built in order. -/
theorem resolve_arrives_iff_and_builds_in_order {b : Backend σ S P L} (never : b.NeverFails)
    {doc : Document.Table} {entries : List Document.Table} {ds : List Declaration}
    (present : Document.tableArray doc "sink" = .ok (some entries))
    (collected : Declaration.collect [] entries = .ok ds) (valid : ∀ d ∈ ds, d.Valid) (s : σ) :
    ((∃ table, ((resolve doc).run b s).result = .ok table) ↔ Closed ds ∧ Acyclic ds) ∧
      ∀ table, ((resolve doc).run b s).result = .ok table →
        BuiltInOrder ds ((resolve doc).calls b s) table := by
  have yields := Plan.yields_calls never (resolve doc) s
  rcases resolve_yields present collected valid yields with
    ⟨table, arrived, built, references⟩ | ⟨e, stopped, faulty⟩
  · refine ⟨⟨fun _ => references, fun _ => ⟨table, arrived⟩⟩, fun table' arrived' => ?_⟩
    cases arrived.symm.trans arrived'
    exact built
  · have not_arrived : ∀ table, ((resolve doc).run b s).result ≠ .ok table := by
      intro table arrived
      cases stopped.symm.trans arrived
    exact ⟨⟨fun ⟨table, arrived⟩ => absurd arrived (not_arrived table), fun h => absurd h faulty⟩,
      fun table arrived => absurd arrived (not_arrived table)⟩

/-- The entry of a fan that comes before its targets, one of which it names twice. -/
def wideFan : Document.Table :=
  [("name", .text "all"), ("type", .text "dist_sink_st"),
    ("sinks", .array [.text "inner", .text "file", .text "inner"])]

/-- The entry of a file with a level and a directory of its own. -/
def levelledFile : Document.Table :=
  [("name", .text "file"), ("type", .text "basic_file_sink_mt"), ("filename", .text "log/app.log"),
    ("create_parent_dir", .boolean true), ("level", .text "warn")]

/-- The entry of a fan that shares its target with the one above it. -/
def innerFan : Document.Table :=
  [("name", .text "inner"), ("type", .text "dist_sink_mt"), ("sinks", .array [.text "file"])]

/-- Fans above a shared file, declared before it: the file comes first, then the inner fan. -/
theorem shared_file_builds_in_order :
    let doc : Document.Table := [("sink", .array [.table wideFan, .table innerFan, .table levelledFile])]
    let ds : List Declaration :=
      [⟨"all", .dist, wideFan⟩, ⟨"inner", .dist, innerFan⟩, ⟨"file", .basicFile, levelledFile⟩]
    let plan : Plan Journal.Item Journal.Item Journal.Item (SinkTable Journal.Item) := resolve doc
    (Journal.backend []).NeverFails ∧
      Document.tableArray doc "sink" = .ok (some [wideFan, innerFan, levelledFile]) ∧
      Declaration.collect [] [wideFan, innerFan, levelledFile] = .ok ds ∧ (∀ d ∈ ds, d.Valid) ∧
      (Closed ds ∧ Acyclic ds) ∧
      BuiltInOrder ds (plan.calls (Journal.backend []) .empty)
        [("file", ⟨0, "file"⟩), ("inner", ⟨1, "inner"⟩), ("all", ⟨2, "all"⟩)] := by
  intro doc ds plan
  have valid : ∀ d ∈ ds, d.Valid := by
    intro d hd
    simp only [ds, List.mem_cons, List.not_mem_nil, or_false] at hd
    rcases hd with rfl | rfl | rfl <;> exact ⟨⟨_, rfl⟩, ⟨_, rfl⟩, ⟨_, rfl⟩⟩
  have present : Document.tableArray doc "sink" = .ok (some [wideFan, innerFan, levelledFile]) := rfl
  have builds := resolve_arrives_iff_and_builds_in_order Journal.backend_neverFails
    present rfl valid .empty
  exact ⟨Journal.backend_neverFails, present, rfl, valid, builds.1.mp ⟨_, rfl⟩, builds.2 _ rfl⟩

end LogTopology.Sink
