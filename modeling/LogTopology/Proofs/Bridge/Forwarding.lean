import LogTopology.Engine.Bridged
import LogTopology.Proofs.Engine.Loggers
/-!
# Which events become messages

A bridge leads to a logger, and while clients go on with their calls, events are reported
(`Happening`). The logger gets the messages of those events that its level lets pass, in order and
each of them once. The level is the one that was set last, so it may be another one for the next
event; and the logger itself, which asks for its level again, drops none of them.

Events of the engine are held back, so that a sink that fails does not report on its own report. An
event is taken for one of these if its target starts like the name of the engine. All targets that
name the engine or a part of it do (`startsAsEngine_of_namesEngine`), but so does the name of anybody
else that only starts in this way (`namesake_held_back`).
-/

namespace LogTopology

namespace Bridge

/-- Something that happens while a bridge leads to a logger. -/
inductive Happening where
  /-- Somebody reports an event. -/
  | event (event : Event)
  /-- A client makes a call. -/
  | call (call : Engine.Call)
  deriving DecidableEq, Repr

/-- Whether a target starts like the name of the engine. -/
def startsAsEngine (target : String) : Bool :=
  engineTarget.toList.isPrefixOf target.toList

/-- Whether a target is the name of the engine, or that of a part of it. -/
def namesEngine (target : String) : Bool :=
  target = engineTarget || (engineTarget ++ "::").toList.isPrefixOf target.toList

/-- Whether an event should become a message, given the targets that are held back and the level of
the logger. -/
def passes (held : String → Bool) (threshold : Level) (ev : Event) : Bool :=
  !held ev.target && threshold.allows (levelOf ev.severity)

/-- A message with its level, as a logger gets it. -/
def messageOf (ev : Event) : Level × String :=
  (levelOf ev.severity, message ev)

/-- The events that are reported, in order, each with the level that the logger has by then. -/
def reported (logger : Nat) : Level → List Happening → List (Level × Event)
  | _, [] => []
  | level, .event ev :: hs => (level, ev) :: reported logger level hs
  | level, .call c :: hs => reported logger (Engine.levelAfter logger level c) hs

/-- The messages of all events that should become one. -/
def messages (held : String → Bool) (logger : Nat) (level : Level) (hs : List Happening) :
    List (Level × String) :=
  ((reported logger level hs).filter fun r => passes held r.1 r.2).map fun r => messageOf r.2

variable {held : String → Bool} {logger : Nat} {level : Level} {hs : List Happening}

/-- A target that names the engine or a part of it starts like the name of the engine. -/
theorem startsAsEngine_of_namesEngine {target : String} (h : namesEngine target) :
    startsAsEngine target := by
  rw [namesEngine, Bool.or_eq_true, decide_eq_true_eq, List.isPrefixOf_iff_prefix,
    String.toList_append] at h
  rw [startsAsEngine, List.isPrefixOf_iff_prefix]
  rcases h with rfl | starts
  · exact List.prefix_rfl
  · exact (List.prefix_append _ _).trans starts

/-- A bridge forwards the events that pass, each as its message with its level. -/
theorem forward?_eq (threshold : Level) (ev : Event) :
    forward? threshold ev =
      if passes startsAsEngine threshold ev then some (messageOf ev) else none := by
  have same : isOwn ev = startsAsEngine ev.target := rfl
  rw [forward?, passes, same]
  cases startsAsEngine ev.target <;> cases threshold.allows (levelOf ev.severity) <;> rfl

/-- The reported events are among the things that happen. -/
theorem mem_reported {r : Level × Event} (mem : r ∈ reported logger level hs) :
    .event r.2 ∈ hs := by
  induction hs generalizing level with
  | nil => exact absurd mem List.not_mem_nil
  | cons h hs ih =>
    cases h with
    | event ev =>
      rcases List.mem_cons.mp mem with rfl | later
      · exact List.mem_cons_self
      · exact List.mem_cons_of_mem _ (ih later)
    | call c => exact List.mem_cons_of_mem _ (ih mem)

/-- The same messages, if the same of the reported events are held back. -/
theorem messages_congr {held' : String → Bool}
    (same : ∀ ev, .event ev ∈ hs → held ev.target = held' ev.target) :
    messages held logger level hs = messages held' logger level hs := by
  rw [messages, messages]
  congr 1
  refine List.filter_congr fun r mem => ?_
  rw [passes, passes, same r.2 (mem_reported mem)]

end Bridge

namespace Engine

open Bridge

variable {e : Engine} {logger : Nat} {l : LoggerState} {hs : List Happening}

/-- Something happens while a bridge leads to a logger. -/
def meet (logger : Nat) (e : Engine) : Happening → Engine
  | .event ev => e.observe logger ev
  | .call c => e.act c

/-- The message that a bridge hands to its logger when an event is reported. -/
def handed? (e : Engine) (logger : Nat) (ev : Event) : Option (Level × String) :=
  e.loggers[logger]?.bind fun l => forward? l.level ev

/-- The messages that a bridge hands to its logger while all of this happens, in order. -/
def handed (logger : Nat) : Engine → List Happening → List (Level × String)
  | _, [] => []
  | e, .event ev :: hs => (e.handed? logger ev).toList ++ handed logger (e.observe logger ev) hs
  | e, .call c :: hs => handed logger (e.act c) hs

/-- An event is handed to the logger as a message, or nothing is done. -/
theorem observe_eq (e : Engine) (logger : Nat) (ev : Event) :
    e.observe logger ev = (e.handed? logger ev).elim e fun m => e.log logger m.1 m.2 := by
  rw [observe, handed?]
  cases e.loggers[logger]?.bind fun l => forward? l.level ev <;> rfl

/-- Reporting an event changes no logger: handing a message over is a write. -/
theorem loggers_observe (e : Engine) (logger : Nat) (ev : Event) :
    (e.observe logger ev).loggers = e.loggers := by
  rw [observe_eq]
  cases e.handed? logger ev with
  | none => rfl
  | some m => exact loggers_log e logger m.1 m.2

/-- A logger that is there is the same one after an event. -/
theorem getElem?_observe (made : e.loggers[logger]? = some l) (ev : Event) :
    (e.observe logger ev).loggers[logger]? = some l := by
  rw [loggers_observe, made]

/-- The level that decides is the one that the logger has when the event is reported. -/
theorem handed?_eq (made : e.loggers[logger]? = some l) (ev : Event) :
    e.handed? logger ev = if passes startsAsEngine l.level ev then some (messageOf ev) else none := by
  rw [handed?, made, Option.bind_some, forward?_eq]

/-- The logger drops no message that it is handed. -/
theorem observe_eq_dispatch (made : e.loggers[logger]? = some l) (ev : Event) :
    e.observe logger ev =
      if passes startsAsEngine l.level ev then
        e.dispatch l (.write logger (e.recordOf l (levelOf ev.severity) (message ev))) none
      else e := by
  rw [observe_eq, handed?_eq made]
  split
  next pass =>
    have allowed : l.level.allows (levelOf ev.severity) = true := (Bool.and_eq_true_iff.mp pass).2
    show e.log logger (levelOf ev.severity) (message ev) = _
    rw [log, made]
    exact if_pos allowed
  next => rfl

/-- After a call the logger has the level that follows from the call. -/
theorem exists_logger_act (made : e.loggers[logger]? = some l) (c : Call) :
    ∃ k, (e.act c).loggers[logger]? = some k ∧ k.level = levelAfter logger l.level c := by
  have level := level_act e logger c
  rw [made, Option.map_some] at level
  exact Option.map_eq_some_iff.mp level

/-- While all of this happens, the bridge hands over the messages of the events that pass. -/
theorem handed_eq_messages (made : e.loggers[logger]? = some l) :
    handed logger e hs = messages startsAsEngine logger l.level hs := by
  -- the level in `reported` keeps up with the one that the logger has in the engine
  induction hs generalizing e l with
  | nil => rfl
  | cons h hs ih =>
    cases h with
    | event ev =>
      have later := ih (getElem?_observe made ev)
      rw [handed, later, handed?_eq made, messages, messages, reported, List.filter_cons]
      split <;> rfl
    | call c =>
      obtain ⟨k, still, level⟩ := exists_logger_act made c
      rw [handed, ih still, level]
      rfl

/-- The logger is there after all of this, and its level is the one that later events come with. -/
theorem exists_logger_meet (made : e.loggers[logger]? = some l) (before : List Happening) :
    ∃ k, (before.foldl (meet logger) e).loggers[logger]? = some k ∧
      ∀ hs, reported logger l.level (before ++ hs) =
        reported logger l.level before ++ reported logger k.level hs := by
  induction before generalizing e l with
  | nil => exact ⟨l, made, fun _ => rfl⟩
  | cons h before ih =>
    cases h with
    | event ev =>
      obtain ⟨k, still, splits⟩ := ih (getElem?_observe made ev)
      refine ⟨k, still, fun hs => ?_⟩
      rw [List.cons_append, reported, reported, splits hs, List.cons_append]
    | call c =>
      obtain ⟨k, there, level⟩ := exists_logger_act made c
      obtain ⟨k', still, splits⟩ := ih there
      rw [level] at splits
      exact ⟨k', still, splits⟩

/-- A bridge hands to its logger, in order and once each, the messages of the events that the
logger's level lets pass and whose targets do not start like the name of the engine. The level is the
one that the logger has when the event is reported, and the logger hands on every message that it
gets. As long as only targets that name the engine start in this way, these are the messages of the
events that are not the engine's own. -/
theorem bridge_hands_over_messages (made : e.loggers[logger]? = some l) :
    handed logger e hs = messages startsAsEngine logger l.level hs ∧
    (∀ before ev after, hs = before ++ .event ev :: after →
      let here := before.foldl (meet logger) e
      ∃ k, here.loggers[logger]? = some k ∧
        reported logger l.level hs =
          reported logger l.level before ++ (k.level, ev) :: reported logger k.level after ∧
        here.observe logger ev =
          if passes startsAsEngine k.level ev then
            here.dispatch k (.write logger (here.recordOf k (levelOf ev.severity) (message ev))) none
          else here) ∧
    ((∀ ev, .event ev ∈ hs → startsAsEngine ev.target → namesEngine ev.target) →
      handed logger e hs = messages namesEngine logger l.level hs) := by
  refine ⟨handed_eq_messages made, ?_, ?_⟩
  · rintro before ev after rfl here
    obtain ⟨k, there, splits⟩ := exists_logger_meet made before
    exact ⟨k, there, splits (.event ev :: after), observe_eq_dispatch there ev⟩
  · intro noNamesake
    rw [handed_eq_messages made]
    refine messages_congr fun ev mem => Bool.eq_iff_iff.mpr ⟨noNamesake ev mem, ?_⟩
    exact startsAsEngine_of_namesEngine

/-- A logger that writes messages to the standard output, and lets warnings pass at first. -/
def loudEngine : Engine :=
  ⟨⟨⟨[], []⟩, [], [], .never, ⟨0, 0, 0⟩, 7⟩, [⟨.trace, some (.console .out false)⟩],
    [⟨"app", .warn, ⟨"%v", [.part .payload]⟩, [.leaf 0], .direct⟩], [], [], none, 0⟩

/-- An event with a message only. -/
def plainEvent (target : String) (severity : Severity) (text : String) : Event :=
  .complete target severity [("message", .shown text)]

/-- An event passes once the level lets it, and the report of a sink is held back. -/
theorem passes_after_level_change :
    let early := plainEvent "app" .debug "early"
    let late := plainEvent "app" .debug "late"
    let report := plainEvent "lgs_runtime::sink" .error "disk full"
    let hs : List Happening := [.event early, .call (.setLevel 0 .debug), .event late, .event report]
    (∃ l, loudEngine.loggers[0]? = some l ∧ l.level = .warn) ∧
      (∀ ev, .event ev ∈ hs → startsAsEngine ev.target → namesEngine ev.target) ∧
      handed 0 loudEngine hs = [(.debug, "late")] ∧
      (hs.foldl (meet 0) loudEngine).world.out = ['l', 'a', 't', 'e', '\n'] := by
  intro early late report hs
  have named : ∀ ev ∈ [early, late, report], startsAsEngine ev.target → namesEngine ev.target := by
    decide
  have own : ∀ ev, .event ev ∈ hs → startsAsEngine ev.target → namesEngine ev.target :=
    fun ev mem => named ev (by simpa [hs] using mem)
  obtain ⟨l, made, warns⟩ : ∃ l, loudEngine.loggers[0]? = some l ∧ l.level = .warn := ⟨_, rfl, rfl⟩
  obtain ⟨-, -, spares⟩ := @bridge_hands_over_messages loudEngine 0 l hs made
  refine ⟨⟨l, made, warns⟩, own, ?_, by decide +kernel⟩
  rw [spares own, warns]
  decide +kernel

/-- The event of somebody else whose name starts like that of the engine is held back, although the
level lets it pass. -/
theorem namesake_held_back :
    let ev := plainEvent "lgs_runtime_tools" .error "hi"
    ¬ namesEngine ev.target ∧ passes namesEngine .warn ev ∧
      messages namesEngine 0 .warn [.event ev] = [(.err, "hi")] ∧
      handed 0 loudEngine [.event ev] = [] ∧ (loudEngine.observe 0 ev).world.out = [] ∧
      (loudEngine.log 0 .err "hi").world.out = ['h', 'i', '\n'] := by
  decide +kernel

end Engine

end LogTopology
