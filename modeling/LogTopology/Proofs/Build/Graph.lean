import LogTopology.Proofs.Build.Registry
import LogTopology.Proofs.Engine.Graph
import LogTopology.Proofs.Sink.Faults
/-!
# The graph of a finished build

A build that arrives leaves the graph that its document declares (`graph_mirrors_document`): one
sink for each declared name and none besides, linked as the lists of the fans say, and loggers that
hold the very sinks that the names of their lists stand for. What the builder tells of it by name is
read off the sinks, not off the document.

The engine may have been in use before. The sinks of the build are new in it, and its loggers are
registered over those that had their names.

The two halves come from different modules. Numbering sinks is a matter of the engine and holds for
any plan (`SinksNumbered`); linking them is a matter of the first stage (`Linked`), and no later
stage makes a sink. `mirrors_of_linked` puts them together, and the identity of a sink gives back
the names under which the document knows it.

Levels, patterns and delivery are no part of the graph; what a logger is besides its name and its
sinks is told with the registry. Of a build that fails nothing is said here.
-/

namespace LogTopology.Build

open Document (entriesOf entryName?)
open Engine (Builder SinksNumbered Linked enrol)
open Plan
open Sink (Declaration Family Kind targetsOf)

variable {doc : Document.Table} {e : Engine} {b : Builder}

/-- The targets that the entry of a sink lists; only fans have a list. -/
inductive ListsTargets (entry : Document.Table) : List String → Prop where
  | fan {type : String} {names : List String}
      (typed : (entry.get? "type").bind Document.Value.text? = some type)
      (family : Family.parse type = .ok .dist)
      (listed : Document.optional .strings entry "sinks" = .ok (some names)) :
      ListsTargets entry names
  | leaf {type : String} {family : Family}
      (typed : (entry.get? "type").bind Document.Value.text? = some type)
      (parsed : Family.parse type = .ok family) (other : family ≠ .dist) : ListsTargets entry []

/-- The logger of a number has the name of an entry, and for each name of the entry's list, in
order, the sink that the build has made under it. -/
structure Bound (b : Builder) (entry : Document.Table) (logger : String × Nat) : Prop where
  name : entryName? entry = some logger.1
  state : ∃ l names, b.engine.loggers[logger.2]? = some l ∧ l.name = logger.1 ∧
    Document.optional .strings entry "sinks" = .ok (some names) ∧
    l.sinks.map some = names.map b.sink?

/-- The graph in the engine after a build is the declared one. -/
structure Mirrors (doc : Document.Table) (e : Engine) (b : Builder)
    (loggers : List (String × Nat)) : Prop where
  /-- There is a sink for each declared name and for no other. -/
  named : ∀ n, (b.sink? n).isSome ↔ some n ∈ (entriesOf doc "sink").map entryName?
  apart : ∀ n m s t, b.sink? n = some s → b.sink? m = some t → s.id = t.id → n = m
  new : ∀ n s, b.sink? n = some s → e.sinks.length ≤ s.id ∧ s.id < b.engine.sinks.length
  /-- The names that are told of a sink are those of its list. -/
  listed : ∀ entry ∈ entriesOf doc "sink", ∃ n, entryName? entry = some n ∧
    ListsTargets entry (b.forwardNames n)
  /-- The sinks that a sink holds are those of the names. -/
  linked : ∀ n s, b.sink? n = some s → s.targets.map some = (b.forwardNames n).map b.sink?
  bound : List.Forall₂ (Bound b) (entriesOf doc "logger") loggers
  registry : b.engine.find? = enrol e.find? loggers

/-! ## Declarations and entries -/

/-- A declaration says what its entry says. -/
structure Declares (entry : Document.Table) (d : Declaration) : Prop where
  table : d.table = entry
  name : entryName? entry = some d.name
  type : ∃ type, (entry.get? "type").bind Document.Value.text? = some type ∧
    Family.parse type = .ok d.family

/-- A declaration that is read from an entry says what the entry says. -/
theorem declares_of_ofEntry {taken : List String} {entry : Document.Table} {d : Declaration}
    (read : Declaration.ofEntry taken entry = .ok d) : Declares entry d := by
  rw [Declaration.ofEntry] at read
  cases named : entryName? entry with
  | none =>
    rw [named] at read
    cases read
  | some name =>
    rw [named] at read
    cases typed : (entry.get? "type").bind Document.Value.text? with
    | none =>
      rw [typed] at read
      cases read
    | some type =>
      rw [typed] at read
      obtain ⟨family, parsed, read⟩ := Setup.bind_eq_ok.mp read
      split at read
      · cases read
      · cases read
        exact ⟨rfl, named, type, typed, Setup.within_eq_ok.mp parsed⟩

/-- The declarations of a document are those of its entries, one for each and in order. -/
theorem declares_of_collect {taken : List String} {entries : List Document.Table}
    {ds : List Declaration} (collected : Declaration.collect taken entries = .ok ds) :
    List.Forall₂ Declares entries ds := by
  induction entries generalizing taken ds with
  | nil =>
    cases collected
    exact .nil
  | cons entry entries ih =>
    obtain ⟨d, read, collected⟩ := Setup.bind_eq_ok.mp collected
    obtain ⟨rest, later, collected⟩ := Setup.bind_eq_ok.mp collected
    cases collected
    exact .cons (declares_of_ofEntry read) (ih later)

/-- Declarations have the names of their entries. -/
theorem names_of_declares {entries : List Document.Table} {ds : List Declaration}
    (declares : List.Forall₂ Declares entries ds) :
    entries.map entryName? = ds.map fun d => some d.name := by
  induction declares with
  | nil => rfl
  | cons first _ ih => rw [List.map_cons, List.map_cons, first.name, ih]

/-- Each entry has a declaration. -/
theorem exists_declares {entries : List Document.Table} {ds : List Declaration}
    (declares : List.Forall₂ Declares entries ds) {entry : Document.Table} (mem : entry ∈ entries) :
    ∃ d ∈ ds, Declares entry d := by
  induction declares with
  | nil => cases mem
  | cons first _ ih =>
    rcases List.mem_cons.mp mem with rfl | mem
    · exact ⟨_, List.mem_cons_self, first⟩
    · obtain ⟨d, later, declares⟩ := ih mem
      exact ⟨d, List.mem_cons_of_mem _ later, declares⟩

/-- The targets of a declaration are what its entry lists. -/
theorem Declares.listsTargets {entry : Document.Table} {d : Declaration}
    (declares : Declares entry d) {kind : Kind}
    (decoded : Kind.decode d.family d.table = .ok kind) : ListsTargets entry kind.targets := by
  obtain ⟨type, typed, parsed⟩ := declares.type
  rw [declares.table] at decoded
  by_cases fan : d.family = .dist
  · rw [fan] at decoded parsed
    obtain ⟨names, read, rfl⟩ := Setup.map_eq_ok.mp decoded
    exact .fan typed parsed (Document.required_eq_ok.mp read)
  · have leaf : kind.targets = [] := by
      have family := (Sink.decode_ends d.family entry).of_ok decoded
      cases kind with
      | dist targets => exact absurd family.symm fan
      | _ => rfl
    rw [leaf]
    exact .leaf typed parsed fan

/-! ## The whole build -/

/-- A logger that is as its entry means it, with the sinks of the build, is bound to them. -/
theorem bound_of_declared {pools : List (PoolTable.Made Nat)} {globalPattern : Option String}
    {entry : Document.Table} {logger : String × Nat}
    (declared : Engine.Declared (Meaning doc b.made pools globalPattern) b.engine entry logger) :
    Bound b entry logger := by
  obtain ⟨name, l, order, found, named, ⟨⟨names, listed, sinks⟩, -, -, -⟩, fulfils⟩ := declared
  refine ⟨name, l, names, found, named, listed, ?_⟩
  rw [fulfils.sinks]
  exact sinks.symm

/-- The sinks of a build whose first stage has left numbered and linked sinks. -/
theorem mirrors_of_linked {entries : List Document.Table} {ds : List Declaration}
    {loggers : List (String × Nat)} (numbered : SinksNumbered e.sinks.length b)
    (present : Document.tableArray doc "sink" = .ok (some entries))
    (collected : Declaration.collect [] entries = .ok ds) (decodable : Sink.Decodable ds)
    (linked : Linked ds b.made)
    (bound : List.Forall₂ (Bound b) (entriesOf doc "logger") loggers)
    (registry : b.engine.find? = enrol e.find? loggers) : Mirrors doc e b loggers := by
  have declares := declares_of_collect collected
  have all : entriesOf doc "sink" = entries := Document.entriesOf_eq present
  have names := names_of_declares declares
  have distinct : (ds.map Declaration.name).Nodup := Sink.collect_distinct .nil collected
  have forwards := Engine.forwardNames_eq numbered linked
  constructor
  case named =>
    intro n
    have declared : n ∈ b.made.map Prod.fst ↔ some n ∈ ds.map fun d => some d.name := by
      rw [linked.declared, List.mem_map, List.mem_map]
      simp only [Option.some.injEq]
    rw [all, names, ← declared, Option.isSome_iff_exists]
    exact ⟨fun ⟨_, found⟩ => List.mem_map_of_mem (mem_of_lookup found), exists_lookup_of_mem_names⟩
  case apart =>
    -- The identity of a sink gives back its entry in the table, and with it the name.
    intro n m s t found there same
    have first := numbered.find?_id (mem_of_lookup found)
    have second := numbered.find?_id (mem_of_lookup there)
    dsimp only at first second
    rw [same, second] at first
    cases first
    rfl
  case new =>
    intro n s found
    have number : s.id ∈ List.range' e.sinks.length b.made.length := by
      rw [← numbered.ids]
      exact List.mem_map_of_mem (mem_of_lookup found)
    rw [numbered.count]
    exact List.mem_range'_1.mp number
  case listed =>
    intro entry mem
    rw [all] at mem
    obtain ⟨d, declared, declares⟩ := exists_declares declares mem
    obtain ⟨kind, decoded⟩ := decodable d declared
    refine ⟨d.name, declares.name, ?_⟩
    rw [forwards, Sink.targetsOf_eq (Sink.find?_of_mem distinct declared) decoded]
    exact declares.listsTargets decoded
  case linked =>
    intro n s found
    rw [forwards]
    exact linked.targets _ (mem_of_lookup found)
  case bound => exact bound
  case registry => exact registry

/-- **The engine holds the declared graph.** After a build that arrives, on any engine, each
declared name has one sink of its own and no other name has any; a fan forwards to the sinks of its
list, and tells their names, in order and with repetitions; and the loggers that were registered
hold the sinks of the names that they list. -/
theorem graph_mirrors_document (doc : Document.Table) (e : Engine)
    (arrived : ((document doc).run Engine.backend ⟨e, []⟩).result = .ok ()) :
    ∃ loggers, Mirrors doc e ((document doc).run Engine.backend ⟨e, []⟩).state loggers := by
  have numbered := (Engine.sinksNumbered_start e).run (document doc)
  -- The sinks are resolved before anything else, and no later stage touches the table.
  have first : (Sink.resolve doc : Plan SinkRef Nat Nat _).Ends Engine.backend ⟨e, []⟩ fun r t =>
      (Engine.SinksOnly e t.engine ∧ ∀ sinks, r = .ok sinks → t.made = sinks) ∧
        ∀ table, r = .ok table → ∃ entries ds,
          Document.tableArray doc "sink" = .ok (some entries) ∧
          Declaration.collect [] entries = .ok ds ∧ Sink.Decodable ds ∧ Linked ds table :=
    ⟨Engine.resolve_ends (b := ⟨e, []⟩) doc rfl, Engine.resolve_ends_linked doc⟩
  have whole : (document doc).Ends Engine.backend ⟨e, []⟩ fun r t => r = .ok () →
      SinksNumbered e.sinks.length t → ∃ loggers, Mirrors doc e t loggers := by
    refine first.bind (fun err t _ same => absurd same Setup.error_ne_ok) ?_
    rintro sinks t ⟨⟨sinksOnly, made⟩, linked⟩
    obtain rfl := made sinks rfl
    obtain ⟨entries, ds, present, collected, decodable, linked⟩ := linked t.made rfl
    refine (afterSinks_ends doc t).imp ?_
    rintro r u (⟨globalPattern, listed, pools, mid, -, -, ready, kept, taken, later, loggers,
      registers⟩ | ⟨⟨err, rfl⟩, -⟩) arrived numbered
    · have made : u.made = t.made := registers.made.trans kept.made
      rw [← made] at linked
      obtain ⟨-, rfl⟩ | ⟨⟨err, failed⟩, -⟩ := registers.ends
      · have same : taken = entriesOf doc "logger" := by
          rw [Document.entriesOf_eq ready.loggers, registers.entries, List.append_nil]
        have bound := registers.declared
        rw [← made, same] at bound
        have prior : mid.engine.find? = e.find? := by
          funext name
          rw [Engine.find?, kept.registry, sinksOnly.registry]
          rfl
        refine ⟨loggers, mirrors_of_linked numbered present collected decodable linked
          (bound.imp fun _ _ => bound_of_declared) ?_⟩
        rw [registers.registry, prior]
      · exact absurd (failed.symm.trans arrived) Setup.error_ne_ok
    · exact absurd arrived Setup.error_ne_ok
  exact whole arrived numbered

/-- A fan above a fan, both above the same console, which the upper one lists twice. One of the
loggers takes the name of a logger that was there before. -/
theorem shared_console_mirrored :
    let doc : Document.Table :=
      [("sink", .array [
          .table [("name", .text "all"), ("type", .text "dist_sink_mt"),
            ("sinks", .array [.text "out", .text "inner", .text "out"])],
          .table [("name", .text "inner"), ("type", .text "dist_sink_st"),
            ("sinks", .array [.text "err", .text "out"])],
          .table [("name", .text "out"), ("type", .text "stdout_sink_mt")],
          .table [("name", .text "err"), ("type", .text "stderr_sink_mt")]]),
        ("logger", .array [
          .table [("name", .text "net"), ("sinks", .array [.text "all", .text "out"])],
          .table [("name", .text "main"), ("sinks", .array [.text "inner", .text "inner"])]])]
    let run := (document doc).run Engine.backend ⟨twoRegistered, []⟩
    run.result = .ok () ∧ (∃ loggers, Mirrors doc twoRegistered run.state loggers) ∧
      run.state.forwardNames "all" = ["out", "inner", "out"] ∧
      run.state.forwardNames "inner" = ["err", "out"] ∧ run.state.forwardNames "out" = [] ∧
      run.state.engine.registry = [("old", 1), ("net", 2), ("main", 3)] ∧
      (run.state.engine.loggers[3]?.map LoggerState.sinks) =
        some [.fan 2 [.leaf 1, .leaf 0], .fan 2 [.leaf 1, .leaf 0]] := by
  intro doc run
  have arrived : run.result = .ok () := rfl
  exact ⟨arrived, graph_mirrors_document doc twoRegistered arrived, rfl, rfl, rfl, rfl, rfl⟩

end LogTopology.Build
