import LogTopology.Event
import LogTopology.Mode
import LogTopology.Sink.Kind
/-!
# Plans

What a document asks for is written down as a plan: a program that calls a backend for sinks, pools
and loggers, reports on its progress, and may fail. The plan knows the things that the backend made
only by their handles. Running the same plan on two backends shows what they have in common: a plan
stops at the first call that fails, and nothing it did before is taken back.
-/

namespace LogTopology

/-- What a plan may ask of a backend, with the type of the answer. Handles of sinks, pools and
loggers are of types `S`, `P` and `L`. -/
inductive Call (S P L : Type) : Type → Type where
  | createDirectory (path : String) : Call S P L Unit
  | createSink (name : String) (kind : Sink.Kind) (forwards : List S) : Call S P L S
  | setSinkLevel (sink : S) (level : Level) : Call S P L Unit
  | setSharedPool (size : PoolSize) : Call S P L Unit
  | createPool (name : String) (size : PoolSize) : Call S P L P
  | createLogger (name : String) (sinks : List S) (mode : LoggerMode P) : Call S P L L
  | setLoggerLevel (logger : L) (level : Level) : Call S P L Unit
  | setPattern (logger : L) (pattern : String) : Call S P L Unit
  | register (logger : L) : Call S P L Unit

/-- A program over a backend. The error of a failing call is put into the context that `wrap`
adds. -/
inductive Plan (S P L α : Type) : Type 1 where
  | done (a : α)
  | fail (e : SetupError)
  | note (e : Event) (next : Plan S P L α)
  | call {β : Type} (c : Call S P L β) (wrap : SetupError → SetupError) (resume : β → Plan S P L α)

namespace Plan

variable {S P L α β : Type}

/-- Continues a plan with its result. -/
def andThen : Plan S P L α → (α → Plan S P L β) → Plan S P L β
  | done a, f => f a
  | fail e, _ => fail e
  | note e next, f => note e (next.andThen f)
  | call c wrap resume, f => call c wrap fun x => (resume x).andThen f

instance : Monad (Plan S P L) where
  pure := done
  bind := andThen

/-- Changes the errors of a plan, its own and those of its calls. -/
def mapError (f : SetupError → SetupError) : Plan S P L α → Plan S P L α
  | done a => done a
  | fail e => fail (f e)
  | note e next => note e (next.mapError f)
  | call c wrap resume => call c (f ∘ wrap) fun x => (resume x).mapError f

/-- Puts a context before the errors of a plan. -/
def within (context : Context) (p : Plan S P L α) : Plan S P L α :=
  p.mapError (.within context)

/-- The plan that has an outcome without asking for anything. -/
def ofSetup : Setup α → Plan S P L α
  | .ok a => done a
  | .error e => fail e

/-- The plan of one call. -/
def ask (c : Call S P L α) : Plan S P L α :=
  call c id done

/-- The plan of one report. -/
def report (e : Event) : Plan S P L Unit :=
  note e (done ())

end Plan

/-- Something that answers calls, in a state of its own. -/
structure Backend (σ S P L : Type) where
  perform : {β : Type} → Call S P L β → σ → Setup β × σ

/-- What running a plan comes to. -/
structure Run (σ α : Type) where
  result : Setup α
  events : List Event
  state : σ

/-- Runs a plan on a backend. -/
def Plan.run {σ S P L α : Type} (b : Backend σ S P L) : Plan S P L α → σ → Run σ α
  | done a, s => ⟨.ok a, [], s⟩
  | fail e, s => ⟨.error e, [], s⟩
  | note e next, s =>
    let r := next.run b s
    ⟨r.result, e :: r.events, r.state⟩
  | call c wrap resume, s =>
    match b.perform c s with
    | (.ok x, s) => (resume x).run b s
    | (.error e, s) => ⟨.error (wrap e), [], s⟩

end LogTopology
