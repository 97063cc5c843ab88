import LogTopology.Sink.Declaration
/-!
# The order in which sinks are made

A sink is made after the sinks that it forwards to. The walk visits the declarations in the order
of the document and goes down to the targets of each before the sink itself is made, so that every
sink is made once, whatever the order of the declarations. A name that is met again while it is
still being worked on closes a cycle, and the walk stops with the names on it.
-/

namespace LogTopology.Sink

/-- How far the work on a sink has come. -/
inductive Mark where
  | active
  | done
  deriving DecidableEq, Repr

/-- One step of the walk. -/
inductive Step where
  /-- Work on a sink begins, with so many others waiting for it. -/
  | enter (name : String) (depth : Nat)
  /-- A sink is made, all of its targets being there. -/
  | make (d : Declaration) (kind : Kind)

/-- Where the walk stands. -/
structure Progress where
  /-- How far the work on each sink has come; the newest mark of a name comes first. -/
  marks : List (String × Mark)
  /-- The sinks being worked on, each waiting for the next. -/
  path : List String
  /-- The sinks made so far, in order. -/
  made : List String
  /-- The steps so far, in order. -/
  steps : List Step

namespace Progress

/-- The start of a walk. -/
def start : Progress := ⟨[], [], [], []⟩

/-- How far the work on a sink has come. -/
def mark? (p : Progress) (name : String) : Option Mark :=
  p.marks.lookup name

/-- Begins the work on a sink. -/
def enter (p : Progress) (name : String) : Progress :=
  ⟨(name, .active) :: p.marks, p.path ++ [name], p.made, p.steps ++ [.enter name p.path.length]⟩

/-- Makes the sink that was worked on last. -/
def leave (p : Progress) (d : Declaration) (kind : Kind) : Progress :=
  ⟨(d.name, .done) :: p.marks, p.path.dropLast, p.made ++ [d.name], p.steps ++ [.make d kind]⟩

/-- The cycle that a name on the path closes. -/
def cycle (p : Progress) (name : String) : List String :=
  p.path.dropWhile (· ≠ name) ++ [name]

end Progress

/-- Where a visit ends, and the error that stopped it, if one did. -/
abbrev Visited := Progress × Option SetupError

/-- Visits sinks one after the other, up to the first error. -/
def visitEach (visit : String → Progress → Visited) : List String → Progress → Visited
  | [], p => (p, none)
  | name :: names, p =>
    match visit name p with
    | (p, none) => visitEach visit names p
    | (p, some e) => (p, some e)

/-- Visits a sink, with room for so many sinks waiting for one another. -/
def visit (ds : List Declaration) : Nat → String → Progress → Visited
  | 0, name, p => (p, some (.unknownSink name))
  | room + 1, name, p =>
    match p.mark? name with
    | some .done => (p, none)
    | some .active => (p, some (.sinkCycle (p.cycle name)))
    | none =>
      match Declaration.find? ds name with
      | none => (p, some (.unknownSink name))
      | some d =>
        let p := p.enter name
        match Kind.decode d.family d.table with
        | .error e => (p, some (.within (.sink name) e))
        | .ok kind =>
          let visitTarget (target : String) (p : Progress) : Visited :=
            match Declaration.find? ds target with
            | none => (p, some (.within (.sink name) (.unknownTarget target name)))
            | some _ => visit ds room target p
          match visitEach visitTarget kind.targets p with
          | (p, some e) => (p, some e)
          | (p, none) => (p.leave d kind, none)

/-- Visits all declared sinks. One more sink than there are can be met on a path, the one that
closes a cycle. -/
def walk (ds : List Declaration) : Visited :=
  visitEach (visit ds (ds.length + 1)) (ds.map Declaration.name) .start

end LogTopology.Sink
