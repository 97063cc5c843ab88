import LogTopology.Plan
import LogTopology.Sink.Walk
/-!
# Making the declared sinks

The plan that makes the sinks of a document: it follows the steps of the walk, and hands every sink
the handles of its targets. The table it ends with has the sinks in the order in which they were
made.
-/

namespace LogTopology.Sink

/-- The sinks made so far, by name, in the order in which they were made. -/
abbrev SinkTable (S : Type) := List (String × S)

/-- The report on a sink. -/
def sinkReport (severity : Severity) (message : String)
    (fields : List (String × FieldValue)) : Event :=
  .about .sinks severity message fields

variable {S P L : Type}

/-- The directory that a sink's file lies in, if the file is not in the current one. -/
def Kind.directory? (kind : Kind) : Option String :=
  (kind.path?.bind PathText.parent?).filter (· ≠ "")

/-- Makes the directory of a sink's file when the declaration asks for it. -/
def prepare (d : Declaration) (kind : Kind) : Plan S P L Unit := do
  if ← Plan.ofSetup (Document.optionalOr .flag d.table "create_parent_dir" false) then
    match kind.directory? with
    | some path => Plan.ask (.createDirectory path)
    | none => pure ()

/-- The level that a declaration gives its sink. -/
def Declaration.level (d : Declaration) : Setup (Option Level) := do
  match ← Document.optional .string d.table "level" with
  | some text => some <$> Level.parse text
  | none => return none

/-- Sets the level of a sink when its declaration gives one. -/
def assignLevel (d : Declaration) (sink : S) : Plan S P L Unit := do
  match ← Plan.ofSetup d.level with
  | some level => Plan.ask (.setSinkLevel sink level)
  | none => pure ()

/-- Makes a sink, with its directory and its level if the declaration has them. -/
def make (table : SinkTable S) (d : Declaration) (kind : Kind) : Plan S P L S := do
  prepare d kind
  let sink ← Plan.ask (.createSink d.name kind (kind.targets.filterMap fun t => table.lookup t))
  assignLevel d sink
  Plan.report (sinkReport .debug "sink built"
    [("sink", .text d.name), ("kind", .shown d.family.name)])
  return sink

/-- Follows the steps of a walk. -/
def follow (table : SinkTable S) : List Step → Plan S P L (SinkTable S)
  | [] => return table
  | .enter name depth :: steps => do
    Plan.report (sinkReport .trace "resolving sink"
      [("sink", .text name), ("depth", .unsigned depth)])
    follow table steps
  | .make d kind :: steps => do
    let sink ← (make table d kind).within (.sink d.name)
    follow (table ++ [(d.name, sink)]) steps

/-- Makes all sinks of a document. -/
def resolve (doc : Document.Table) : Plan S P L (SinkTable S) := do
  match ← Plan.ofSetup (Document.tableArray doc "sink") with
  | none => .fail .noSinks
  | some entries =>
    let (p, stop) := walk (← Plan.ofSetup (Declaration.collect [] entries))
    let table ← follow [] p.steps
    match stop with
    | some e => .fail e
    | none =>
      Plan.report (sinkReport .debug "sinks resolved" [("count", .unsigned table.length)])
      return table

end LogTopology.Sink
