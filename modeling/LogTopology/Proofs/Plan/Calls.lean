import LogTopology.Plan
/-!
# The calls of a plan

What a plan asks of a backend is seen from outside as a list of calls with their answers. `Plan.calls`
reads this list off a run. A backend none of whose calls fails leaves the plan only one freedom, the
answers; `Plan.Yields` says what a plan does for some answers, with no backend and no state in it,
and `Plan.yields_calls` brings every run on such a backend under it. The laws below take a yield
apart along the plan: a continued plan yields the calls of its first part, then those of its rest.

The order of calls and reports is not related here; reports do not show in a yield.

A yield needs no run: `Yields` is defined by the constructors of plans, with any answer for a call,
and a run on a backend that never fails is the yield for the answers that it happened to give. Laws
about yields are equivalences, so a stage is taken apart by rewriting, from the outside in.

Calls that fail are no part of a yield. What comes of them is told by attempts and refusals.
-/

namespace LogTopology

variable {σ S P L α β : Type}

/-- A call together with the answer that it got. -/
structure Answered (S P L : Type) : Type 1 where
  {Answer : Type}
  call : Call S P L Answer
  answer : Answer

/-- The name and the handle of the sink that a call has made, if it is a call that makes one. -/
def Answered.sink? : Answered S P L → Option (String × S)
  | ⟨.createSink name _ _, sink⟩ => some (name, sink)
  | _ => none

/-- A backend none of whose calls fails, in any state. -/
def Backend.NeverFails (b : Backend σ S P L) : Prop :=
  ∀ (β : Type) (c : Call S P L β) (s : σ), ∃ x, (b.perform c s).1 = .ok x

namespace Plan

/-- The calls that a plan makes on a backend, in order and with their answers. A call that fails
ends the run and is not among them. -/
def calls (b : Backend σ S P L) : Plan S P L α → σ → List (Answered S P L)
  | done _, _ => []
  | fail _, _ => []
  | note _ next, s => next.calls b s
  | call c _ resume, s =>
    match b.perform c s with
    | (.ok x, s) => ⟨c, x⟩ :: (resume x).calls b s
    | (.error _, _) => []

/-- What a plan does for some answers to its calls: the calls that it makes, and how it ends. -/
inductive Yields : Plan S P L α → List (Answered S P L) → Setup α → Prop where
  | done (a : α) : Yields (.done a) [] (.ok a)
  | fail (e : SetupError) : Yields (.fail e) [] (.error e)
  | note {e : Event} {next : Plan S P L α} {cs : List (Answered S P L)} {r : Setup α}
      (rest : Yields next cs r) : Yields (.note e next) cs r
  | call {β : Type} {c : Call S P L β} {wrap : SetupError → SetupError}
      {resume : β → Plan S P L α} {cs : List (Answered S P L)} {r : Setup α} (x : β)
      (rest : Yields (resume x) cs r) : Yields (.call c wrap resume) (⟨c, x⟩ :: cs) r

/-- A run on a backend that never fails is one of the plan's yields. -/
theorem yields_calls {b : Backend σ S P L} (never : b.NeverFails) (p : Plan S P L α) (s : σ) :
    p.Yields (p.calls b s) (p.run b s).result := by
  induction p generalizing s with
  | done a => exact .done a
  | fail e => exact .fail e
  | note e next ih => exact .note (ih s)
  | call c wrap resume ih =>
    obtain ⟨x, hx⟩ := never _ c s
    obtain ⟨t, ht⟩ : ∃ t, b.perform c s = (.ok x, t) := ⟨_, Prod.ext hx rfl⟩
    simp only [calls, run, ht]
    exact .call x (ih x _)

/-! ## Taking yields apart -/

/-- A plan that is done makes no call. -/
theorem yields_pure {a : α} {cs : List (Answered S P L)} {r : Setup α} :
    Yields (pure a) cs r ↔ cs = [] ∧ r = .ok a := by
  constructor
  · intro h
    cases h
    exact ⟨rfl, rfl⟩
  · rintro ⟨rfl, rfl⟩
    exact .done a

/-- A plan that fails makes no call. -/
theorem yields_fail {e : SetupError} {cs : List (Answered S P L)} {r : Setup α} :
    Yields (.fail e) cs r ↔ cs = [] ∧ r = .error e := by
  constructor
  · intro h
    cases h
    exact ⟨rfl, rfl⟩
  · rintro ⟨rfl, rfl⟩
    exact .fail e

/-- A report makes no call. -/
theorem yields_report {e : Event} {cs : List (Answered S P L)} {r : Setup Unit} :
    Yields (report e) cs r ↔ cs = [] ∧ r = .ok () := by
  constructor
  · intro h
    cases h with
    | note rest => exact yields_pure.mp rest
  · rintro ⟨rfl, rfl⟩
    exact .note (.done ())

/-- A question makes its call and ends with the answer. -/
theorem yields_ask {c : Call S P L α} {cs : List (Answered S P L)} {r : Setup α} :
    Yields (ask c) cs r ↔ ∃ x, cs = [⟨c, x⟩] ∧ r = .ok x := by
  constructor
  · intro h
    cases h with
    | call x rest =>
      obtain ⟨rfl, rfl⟩ := yields_pure.mp rest
      exact ⟨x, rfl, rfl⟩
  · rintro ⟨x, rfl, rfl⟩
    exact .call x (.done x)

/-- Changing the errors of a plan changes no call; its end changes with it. -/
theorem yields_mapError {f : SetupError → SetupError} {p : Plan S P L α}
    {cs : List (Answered S P L)} {r : Setup α} :
    Yields (p.mapError f) cs r ↔ ∃ o, p.Yields cs o ∧ r = Except.mapError f o := by
  induction p generalizing cs r with
  | done a =>
    constructor
    · intro h
      obtain ⟨rfl, rfl⟩ := yields_pure.mp h
      exact ⟨.ok a, .done a, rfl⟩
    · rintro ⟨o, ho, rfl⟩
      obtain ⟨rfl, rfl⟩ := yields_pure.mp ho
      exact .done a
  | fail e =>
    constructor
    · intro h
      obtain ⟨rfl, rfl⟩ := yields_fail.mp h
      exact ⟨.error e, .fail e, rfl⟩
    · rintro ⟨o, ho, rfl⟩
      obtain ⟨rfl, rfl⟩ := yields_fail.mp ho
      exact .fail (f e)
  | note e next ih =>
    constructor
    · intro h
      cases h with
      | note rest =>
        obtain ⟨o, ho, hr⟩ := ih.mp rest
        exact ⟨o, .note ho, hr⟩
    · rintro ⟨o, ho, hr⟩
      cases ho with
      | note rest => exact .note (ih.mpr ⟨o, rest, hr⟩)
  | call c wrap resume ih =>
    constructor
    · intro h
      cases h with
      | call x rest =>
        obtain ⟨o, ho, hr⟩ := (ih x).mp rest
        exact ⟨o, .call x ho, hr⟩
    · rintro ⟨o, ho, hr⟩
      cases ho with
      | call x rest => exact .call x ((ih x).mpr ⟨o, rest, hr⟩)

/-- A plan continued with its result: either its first part fails, and nothing follows, or the calls
of the first part are followed by those of the continuation. -/
theorem yields_bind {p : Plan S P L α} {f : α → Plan S P L β} {cs : List (Answered S P L)}
    {r : Setup β} :
    Yields (p >>= f) cs r ↔
      (∃ e, p.Yields cs (.error e) ∧ r = .error e) ∨
        ∃ a first rest, p.Yields first (.ok a) ∧ (f a).Yields rest r ∧ cs = first ++ rest := by
  change Yields (p.andThen f) cs r ↔ _
  -- On the first plan: the second begins where the first ends, and what comes before stays in
  -- front.
  induction p generalizing cs with
  | done a =>
    constructor
    · intro h
      exact .inr ⟨a, [], cs, .done a, h, rfl⟩
    · rintro (⟨e, he, _⟩ | ⟨a', first, rest, ha, h, rfl⟩)
      · cases he
      · cases ha
        exact h
  | fail e =>
    constructor
    · intro h
      obtain ⟨rfl, rfl⟩ := yields_fail.mp h
      exact .inl ⟨e, .fail e, rfl⟩
    · rintro (⟨e', he, rfl⟩ | ⟨a, first, rest, ha, _, _⟩)
      · cases he
        exact .fail e
      · cases ha
  | note e next ih =>
    constructor
    · intro h
      cases h with
      | note rest =>
        rcases ih.mp rest with ⟨e', he, hr⟩ | ⟨a, first, rest, ha, h, hcs⟩
        · exact .inl ⟨e', .note he, hr⟩
        · exact .inr ⟨a, first, rest, .note ha, h, hcs⟩
    · rintro (⟨e', he, hr⟩ | ⟨a, first, rest, ha, h, hcs⟩)
      · cases he with
        | note inner => exact .note (ih.mpr (.inl ⟨e', inner, hr⟩))
      · cases ha with
        | note inner => exact .note (ih.mpr (.inr ⟨a, first, rest, inner, h, hcs⟩))
  | call c wrap resume ih =>
    constructor
    · intro h
      cases h with
      | call x rest =>
        rcases (ih x).mp rest with ⟨e', he, hr⟩ | ⟨a, first, after, ha, h, rfl⟩
        · exact .inl ⟨e', .call x he, hr⟩
        · exact .inr ⟨a, ⟨c, x⟩ :: first, after, .call x ha, h, rfl⟩
    · rintro (⟨e', he, hr⟩ | ⟨a, first, rest, ha, h, rfl⟩)
      · cases he with
        | call x inner => exact .call x ((ih x).mpr (.inl ⟨e', inner, hr⟩))
      · cases ha with
        | call x inner => exact .call x ((ih x).mpr (.inr ⟨a, _, rest, inner, h, rfl⟩))

/-- A continued plan whose first part cannot fail: its calls come first. -/
theorem yields_bind_sure {p : Plan S P L α} {f : α → Plan S P L β} {cs : List (Answered S P L)}
    {r : Setup β} (sure : ∀ first e, ¬ p.Yields first (.error e)) (h : Yields (p >>= f) cs r) :
    ∃ a first rest, p.Yields first (.ok a) ∧ (f a).Yields rest r ∧ cs = first ++ rest := by
  rcases yields_bind.mp h with ⟨e, he, _⟩ | h
  · exact absurd he (sure cs e)
  · exact h

/-- A question that a plan goes on from. -/
theorem yields_ask_bind {c : Call S P L α} {f : α → Plan S P L β} {cs : List (Answered S P L)}
    {r : Setup β} (h : Yields (ask c >>= f) cs r) :
    ∃ x rest, (f x).Yields rest r ∧ cs = ⟨c, x⟩ :: rest := by
  cases h with
  | call x rest => exact ⟨x, _, rest, rfl⟩

/-- A report that a plan goes on from. -/
theorem yields_report_bind {e : Event} {f : Unit → Plan S P L β} {cs : List (Answered S P L)}
    {r : Setup β} (h : Yields (report e >>= f) cs r) : (f ()).Yields cs r := by
  cases h with
  | note rest => exact rest

/-- A plan that first reads an outcome that is there goes on with it. -/
theorem yields_ofSetup_bind_ok {a : α} {f : α → Plan S P L β} {cs : List (Answered S P L)}
    {r : Setup β} : Yields (ofSetup (.ok a) >>= f) cs r ↔ (f a).Yields cs r := .rfl

/-- A plan that first reads an outcome ends with it when it is an error, without a call. -/
theorem yields_ofSetup_bind {o : Setup α} {f : α → Plan S P L β} {cs : List (Answered S P L)}
    {r : Setup β} (h : Yields (ofSetup o >>= f) cs r) :
    (∃ e, o = .error e ∧ cs = [] ∧ r = .error e) ∨ ∃ a, o = .ok a ∧ (f a).Yields cs r := by
  cases o with
  | error e =>
    obtain ⟨rfl, rfl⟩ := yields_fail.mp h
    exact .inl ⟨e, rfl, rfl, rfl⟩
  | ok a => exact .inr ⟨a, rfl, h⟩

/-! ## Runs of continued plans -/

/-- A continued plan whose first part arrives goes on from the state that it left. -/
theorem run_bind_of_ok {b : Backend σ S P L} {p : Plan S P L α} {f : α → Plan S P L β} {s : σ}
    {a : α} (h : (p.run b s).result = .ok a) :
    (p >>= f).calls b s = p.calls b s ++ (f a).calls b (p.run b s).state ∧
      ((p >>= f).run b s).result = ((f a).run b (p.run b s).state).result := by
  change (p.andThen f).calls b s = _ ∧ ((p.andThen f).run b s).result = _
  induction p generalizing s with
  | done a' =>
    cases h
    exact ⟨rfl, rfl⟩
  | fail e => cases h
  | note e next ih => exact ih h
  | call c wrap resume ih =>
    rcases answered : b.perform c s with ⟨e | x, t⟩
    · simp only [run, answered] at h
      cases h
    · simp only [andThen, run, calls, answered] at h ⊢
      obtain ⟨sameCalls, sameResult⟩ := ih x h
      exact ⟨congrArg _ sameCalls, sameResult⟩

/-- A continued plan whose first part fails makes no further call. -/
theorem run_bind_of_error {b : Backend σ S P L} {p : Plan S P L α} {f : α → Plan S P L β} {s : σ}
    {e : SetupError} (h : (p.run b s).result = .error e) :
    (p >>= f).calls b s = p.calls b s ∧ ((p >>= f).run b s).result = .error e := by
  change (p.andThen f).calls b s = _ ∧ ((p.andThen f).run b s).result = _
  induction p generalizing s with
  | done a => cases h
  | fail e' =>
    cases h
    exact ⟨rfl, rfl⟩
  | note e' next ih => exact ih h
  | call c wrap resume ih =>
    rcases answered : b.perform c s with ⟨e' | x, t⟩
    · simp only [run, answered] at h
      cases h
      constructor
      · simp only [andThen, calls, answered]
      · simp only [andThen, run, answered]
    · simp only [andThen, run, calls, answered] at h ⊢
      obtain ⟨sameCalls, sameResult⟩ := ih x h
      exact ⟨congrArg _ sameCalls, sameResult⟩

end Plan

end LogTopology
