import LogTopology.Proofs.Plan.Calls
/-!
# Refused calls

Any backend can be made to refuse some of its calls: a refused call fails with a given error and
changes nothing. A plan cannot tell such a backend from the one behind it before a call is refused,
and it does nothing afterwards. So a run with refusals is a run without them that was cut off before
the first attempt that is refused (`stops_at_first_refusal`), and where no attempt is refused the two
runs are the same (`run_refusing_of_unrefused`).

A plan may still hide why it stopped, since it says itself what becomes of the error of a call. A
plan is candid when none of its calls does that: the error that it ends with carries the error of
the call. All plans that are put together from calls, reports and contexts are candid.
-/

namespace LogTopology

/-! ## Carried errors -/

namespace SetupError

/-- `cause.CarriedBy e`: the error is the cause, perhaps within contexts. -/
inductive CarriedBy (cause : SetupError) : SetupError → Prop where
  | itself : CarriedBy cause cause
  | within (context : Context) {e : SetupError} (inner : CarriedBy cause e) :
      CarriedBy cause (.within context e)
  | refusedPattern (logger : String) {e : SetupError} (inner : CarriedBy cause e) :
      CarriedBy cause (.refusedPattern logger e)

theorem CarriedBy.trans {first second third : SetupError} (inner : first.CarriedBy second)
    (outer : second.CarriedBy third) : first.CarriedBy third := by
  induction outer with
  | itself => exact inner
  | within context _ ih => exact .within context ih
  | refusedPattern logger _ ih => exact .refusedPattern logger ih

/-- A context is told before the error in it. -/
theorem message_within (context : Context) (e : SetupError) :
    (within context e).message = context.message ++ ":\n > " ++ e.message := rfl

/-- The refusal of a pattern is told before the error in it. -/
theorem message_refusedPattern (logger : String) (e : SetupError) :
    (refusedPattern logger e).message =
      "Error setting pattern to logger '" ++ logger ++ "': " ++ e.message := rfl

/-- The message of a cause ends the message of every error that carries it. -/
theorem CarriedBy.message {cause e : SetupError} (carried : cause.CarriedBy e) :
    ∃ before, e.message = before ++ cause.message := by
  induction carried with
  | itself => exact ⟨"", by rw [String.empty_append]⟩
  | within context _ ih =>
    obtain ⟨before, same⟩ := ih
    rw [message_within, same, ← String.append_assoc]
    exact ⟨_, rfl⟩
  | refusedPattern logger _ ih =>
    obtain ⟨before, same⟩ := ih
    rw [message_refusedPattern, same, ← String.append_assoc]
    exact ⟨_, rfl⟩

end SetupError

variable {σ S P L α β : Type}

/-! ## Attempts -/

/-- Which calls are refused, and with what error. The state counts as well, since a call may know
the thing that it is about by its handle only. -/
structure Refusals (σ S P L : Type) : Type 1 where
  error? : {β : Type} → Call S P L β → σ → Option SetupError

/-- A backend with some of its calls refused; a refused call changes nothing. -/
def Backend.refusing (b : Backend σ S P L) (refusals : Refusals σ S P L) : Backend σ S P L where
  perform c s :=
    match refusals.error? c s with
    | some e => (.error e, s)
    | none => b.perform c s

/-- A call that was made in a state, and what came of it. -/
structure Attempt (σ S P L : Type) : Type 1 where
  {Answer : Type}
  call : Call S P L Answer
  state : σ
  outcome : Setup Answer

namespace Attempt

/-- The call with its answer, if it has one. -/
def answered? (a : Attempt σ S P L) : Option (Answered S P L) :=
  match a.outcome with
  | .ok x => some ⟨a.call, x⟩
  | .error _ => none

/-- The error with which an attempt is refused, if it is. -/
def refusal? (refusals : Refusals σ S P L) (a : Attempt σ S P L) : Option SetupError :=
  refusals.error? a.call a.state

/-- The attempt at the same call that fails. -/
def failing (a : Attempt σ S P L) (e : SetupError) : Attempt σ S P L :=
  ⟨a.call, a.state, .error e⟩

end Attempt

/-- The calls that a plan makes on a backend, in order, with the one that fails if there is one. -/
def Plan.attempts (b : Backend σ S P L) : Plan S P L α → σ → List (Attempt σ S P L)
  | done _, _ => []
  | fail _, _ => []
  | note _ next, s => next.attempts b s
  | call c _ resume, s =>
    match b.perform c s with
    | (.ok x, t) => ⟨c, s, .ok x⟩ :: (resume x).attempts b t
    | (.error e, _) => [⟨c, s, .error e⟩]

section Refusing

variable {b : Backend σ S P L} {refusals : Refusals σ S P L} {c : Call S P L β} {s : σ}

/-- A refused call fails with the error of its refusal, in the state in which it was made. -/
theorem Backend.refusing_of_refused {e : SetupError} (refused : refusals.error? c s = some e) :
    (b.refusing refusals).perform c s = (.error e, s) := by
  simp only [refusing, refused]

/-- A call that is not refused is answered by the backend behind. -/
theorem Backend.refusing_of_unrefused (unrefused : refusals.error? c s = none) :
    (b.refusing refusals).perform c s = b.perform c s := by
  simp only [refusing, unrefused]

end Refusing

namespace Plan

variable {b : Backend σ S P L} {refusals : Refusals σ S P L}

/-- The calls of a plan are its attempts that have an answer. -/
theorem calls_eq_filterMap_attempts (b : Backend σ S P L) (p : Plan S P L α) (s : σ) :
    p.calls b s = (p.attempts b s).filterMap Attempt.answered? := by
  induction p generalizing s with
  | done a => rfl
  | fail e => rfl
  | note e next ih => exact ih s
  | call c wrap resume ih =>
    rcases answered : b.perform c s with ⟨e | x, t⟩
    · simp only [calls, attempts, answered]
      rfl
    · simp only [calls, attempts, answered]
      exact congrArg _ (ih x t)

/-! ## Candid plans -/

/-- A plan that does not hide the errors of its calls. -/
inductive Candid : Plan S P L α → Prop where
  | done (a : α) : Candid (.done a)
  | fail (e : SetupError) : Candid (.fail e)
  | note (e : Event) {next : Plan S P L α} (rest : Candid next) : Candid (.note e next)
  | call {β : Type} {c : Call S P L β} {wrap : SetupError → SetupError}
      {resume : β → Plan S P L α} (wraps : ∀ e : SetupError, e.CarriedBy (wrap e))
      (rest : ∀ x, Candid (resume x)) : Candid (.call c wrap resume)

namespace Candid

/-- A plan that has its result is candid. -/
theorem pure (a : α) : (Pure.pure a : Plan S P L α).Candid :=
  .done a

/-- An outcome that is there without a call is candid. -/
theorem ofSetup (o : Setup α) : (Plan.ofSetup o : Plan S P L α).Candid := by
  cases o with
  | error e => exact .fail e
  | ok a => exact .done a

/-- A single call is candid, its error being its own. -/
theorem ask (c : Call S P L α) : (Plan.ask c).Candid :=
  .call (fun _ => .itself) .done

/-- A report is candid. -/
theorem report (e : Event) : (Plan.report e : Plan S P L Unit).Candid :=
  .note e (.done ())

/-- A candid plan goes on candidly. -/
theorem bind {p : Plan S P L α} {f : α → Plan S P L β} (first : p.Candid)
    (rest : ∀ a, (f a).Candid) : (p >>= f).Candid := by
  change (p.andThen f).Candid
  induction first with
  | done a => exact rest a
  | fail e => exact .fail e
  | note e _ ih => exact .note e ih
  | call wraps _ ih => exact .call wraps ih

/-- A candid plan stays so when its errors are put into others that carry them. -/
theorem mapError {f : SetupError → SetupError} {p : Plan S P L α} (candid : p.Candid)
    (keeps : ∀ e : SetupError, e.CarriedBy (f e)) : (p.mapError f).Candid := by
  induction candid with
  | done a => exact .done a
  | fail e => exact .fail (f e)
  | note e _ ih => exact .note e ih
  | call wraps _ ih => exact .call (fun e => (wraps e).trans (keeps _)) ih

/-- A context carries the error that it is put before. -/
theorem within {p : Plan S P L α} (candid : p.Candid) (context : Context) :
    (p.within context).Candid :=
  candid.mapError fun _ => .within context .itself

end Candid

/-! ## Runs with refusals -/

/-- A run with refusals that made some calls and was then refused one. -/
structure StopsAt (b : Backend σ S P L) (refusals : Refusals σ S P L) (p : Plan S P L α) (s : σ)
    (before : List (Attempt σ S P L)) (a : Attempt σ S P L) (e : SetupError) : Prop where
  unrefused : ∀ x ∈ before, x.refusal? refusals = none
  refused : a.refusal? refusals = some e
  /-- The calls that went well are those before, with the same answers. -/
  calls : (p.calls (b.refusing refusals) s).map some = before.map Attempt.answered?
  /-- The refused call is the last one. -/
  attempts : p.attempts (b.refusing refusals) s = before ++ [a.failing e]
  /-- The backend is left as the refused call has found it. -/
  state : (p.run (b.refusing refusals) s).state = a.state
  result : ∃ err, (p.run (b.refusing refusals) s).result = .error err ∧ e.CarriedBy err

section Call

variable {c : Call S P L β} {wrap : SetupError → SetupError} {resume : β → Plan S P L α} {s t : σ}
  {x : β}

/-- A call that is answered is attempted, and the rest follows in the state that it left. -/
theorem attempts_of_ok (answered : b.perform c s = (.ok x, t)) :
    (call c wrap resume).attempts b s = ⟨c, s, .ok x⟩ :: (resume x).attempts b t := by
  simp only [attempts, answered]

/-- A call that fails is the last attempt. -/
theorem attempts_of_error {e : SetupError} (answered : b.perform c s = (.error e, t)) :
    (call c wrap resume).attempts b s = [⟨c, s, .error e⟩] := by
  simp only [attempts, answered]

/-- Whatever comes of a call, it is the first attempt. -/
theorem exists_attempts_eq_cons :
    ∃ o rest, (call c wrap resume).attempts b s = ⟨c, s, o⟩ :: rest := by
  rcases answered : b.perform c s with ⟨e | x, t⟩
  · exact ⟨_, _, attempts_of_error answered⟩
  · exact ⟨_, _, attempts_of_ok answered⟩

/-- When another attempt follows that of a call, the call was answered, and the plan went on to make
the others. -/
theorem exists_answered_of_attempts {head a : Attempt σ S P L} {front back : List (Attempt σ S P L)}
    (split : (call c wrap resume).attempts b s = head :: front ++ a :: back) :
    ∃ x t, b.perform c s = (.ok x, t) ∧ head = ⟨c, s, .ok x⟩ ∧
      (resume x).attempts b t = front ++ a :: back := by
  rcases answered : b.perform c s with ⟨e | x, t⟩
  · simp [attempts_of_error answered] at split
  · rw [attempts_of_ok answered, List.cons_append, List.cons.injEq] at split
    exact ⟨x, t, rfl, split.1.symm, split.2⟩

/-- A run whose first call is refused stops there. -/
theorem stopsAt_refused {e : SetupError} (refused : refusals.error? c s = some e)
    (carried : e.CarriedBy (wrap e)) (o : Setup β) :
    StopsAt b refusals (call c wrap resume) s [] ⟨c, s, o⟩ e := by
  have stops := Backend.refusing_of_refused (b := b) refused
  refine ⟨List.forall_mem_nil _, refused, ?_, ?_, ?_, wrap e, ?_, carried⟩
  · simp only [calls, stops]
    rfl
  · exact attempts_of_error stops
  · simp only [run, stops]
  · simp only [run, stops]

/-- A call that is answered and not refused comes before the one that is. -/
theorem StopsAt.cons {before : List (Attempt σ S P L)} {a : Attempt σ S P L} {e : SetupError}
    (answered : b.perform c s = (.ok x, t)) (unrefused : refusals.error? c s = none)
    (stops : StopsAt b refusals (resume x) t before a e) :
    StopsAt b refusals (call c wrap resume) s (⟨c, s, .ok x⟩ :: before) a e := by
  have goesOn := (Backend.refusing_of_unrefused (b := b) unrefused).trans answered
  refine ⟨List.forall_mem_cons.mpr ⟨unrefused, stops.unrefused⟩, stops.refused, ?_, ?_, ?_, ?_⟩
  · simp only [Plan.calls, goesOn, List.map_cons, stops.calls]
    rfl
  · rw [attempts_of_ok goesOn, stops.attempts]
    rfl
  · simp only [run, goesOn, stops.state]
  · simp only [run, goesOn, stops.result]

end Call

/-- When some attempt of a run is refused, the run with refusals stops at the first such attempt. -/
theorem stops_at_first_refusal {p : Plan S P L α} (candid : p.Candid) {s : σ}
    (met : ∃ a ∈ p.attempts b s, a.refusal? refusals ≠ none) :
    ∃ before a after e, p.attempts b s = before ++ a :: after ∧
      StopsAt b refusals p s before a e := by
  induction candid generalizing s with
  | done a =>
    obtain ⟨_, mem, -⟩ := met
    cases mem
  | fail e =>
    obtain ⟨_, mem, -⟩ := met
    cases mem
  | note e _ ih =>
    obtain ⟨before, a, after, e, split, stops⟩ := ih met
    exact ⟨before, a, after, e, split, stops.unrefused, stops.refused, stops.calls, stops.attempts,
      stops.state, stops.result⟩
  | @call β c wrap resume wraps _ ih =>
    -- A refused call ends the plan at once; any other is answered as if nothing were refused.
    cases refused : refusals.error? c s with
    | some e =>
      obtain ⟨o, rest, first⟩ : ∃ o rest, (call c wrap resume).attempts b s = ⟨c, s, o⟩ :: rest :=
        exists_attempts_eq_cons
      exact ⟨[], _, rest, e, first, stopsAt_refused refused (wraps e) o⟩
    | none =>
      obtain ⟨a, mem, named⟩ := met
      rcases answered : b.perform c s with ⟨e | x, t⟩
      · rw [attempts_of_error answered, List.mem_singleton] at mem
        rw [mem] at named
        exact absurd refused named
      · rw [attempts_of_ok answered] at mem ⊢
        rcases List.mem_cons.mp mem with rfl | mem
        · exact absurd refused named
        obtain ⟨before, a, after, e, split, stops⟩ := ih x ⟨a, mem, named⟩
        exact ⟨_, a, after, e, congrArg _ split, stops.cons answered refused⟩

/-- When no attempt of a run is refused, the run with refusals is the same. -/
theorem run_refusing_of_unrefused {p : Plan S P L α} {s : σ}
    (unrefused : ∀ a ∈ p.attempts b s, a.refusal? refusals = none) :
    p.attempts (b.refusing refusals) s = p.attempts b s ∧
      p.run (b.refusing refusals) s = p.run b s := by
  induction p generalizing s with
  | done a => exact ⟨rfl, rfl⟩
  | fail e => exact ⟨rfl, rfl⟩
  | note e next ih =>
    obtain ⟨sameAttempts, sameRun⟩ := ih unrefused
    exact ⟨sameAttempts, by simp only [run, sameRun]⟩
  | call c wrap resume ih =>
    rcases answered : b.perform c s with ⟨e | x, t⟩
    · simp only [attempts, answered, List.forall_mem_singleton] at unrefused
      have goesOn := Backend.refusing_of_unrefused (b := b) unrefused
      simp only [attempts, run, goesOn, answered, and_self]
    · simp only [attempts, answered, List.forall_mem_cons] at unrefused
      have goesOn := Backend.refusing_of_unrefused (b := b) unrefused.1
      obtain ⟨sameAttempts, sameRun⟩ := ih x unrefused.2
      simp only [attempts, run, goesOn, answered, sameAttempts, sameRun, and_self]

end Plan

end LogTopology
