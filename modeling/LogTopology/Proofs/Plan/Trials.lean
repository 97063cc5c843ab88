import LogTopology.Proofs.Plan.Meets
import LogTopology.Proofs.Plan.Refusal
/-!
# Calls that may come to anything

Every call of a plan may be answered in some way or fail with some error, and a failing call ends the
plan. `Plan.Ensures` speaks of all the runs that this leaves open, with no backend in it: those that
arrive satisfy one condition on the result and the attempted calls, and those that do not satisfy
another on the error and the calls. It is `Plan.Meets` in the trial where anything may come back.

`Ensures.run` brings the two conditions down to every run on every backend. `sinksOf` and `namesOf`
read off the attempts which sinks have been made, which is what most of the conditions are about.

Not every error and answer that is allowed for here can come from a given backend, so what holds on
one backend only cannot be said this way. Reports are passed over.
-/

namespace LogTopology

variable {σ S P L α β : Type}

namespace Attempt

/-- The error with which the attempt failed, if it did. -/
def error? (a : Attempt σ S P L) : Option SetupError :=
  match a.outcome with
  | .ok _ => none
  | .error e => some e

end Attempt

/-- The sinks that attempts have made, by name. -/
def sinksOf (attempts : List (Attempt σ S P L)) : List (String × S) :=
  attempts.filterMap fun a => a.answered?.bind Answered.sink?

/-- The names of the sinks that attempts have made. -/
def namesOf (attempts : List (Attempt σ S P L)) : List String :=
  (sinksOf attempts).map Prod.fst

/-- The sinks of attempts are those of the first ones, then those of the rest. -/
theorem sinksOf_append (first rest : List (Attempt σ S P L)) :
    sinksOf (first ++ rest) = sinksOf first ++ sinksOf rest :=
  List.filterMap_append

/-- An attempt that makes no sink leaves the sinks as they are. -/
theorem sinksOf_concat_of_none {before : List (Attempt σ S P L)} {a : Attempt σ S P L}
    (none : a.answered?.bind Answered.sink? = .none) :
    sinksOf (before ++ [a]) = sinksOf before := by
  rw [sinksOf_append, show sinksOf [a] = [] from List.filterMap_cons_none none, List.append_nil]

/-- An attempt that makes a sink adds its name. -/
theorem namesOf_of_sinksOf {before after : List (Attempt σ S P L)} {name : String} {sink : S}
    (grown : sinksOf after = sinksOf before ++ [(name, sink)]) :
    namesOf after = namesOf before ++ [name] := by
  rw [namesOf, grown, List.map_append]
  rfl

/-- The trial of calls that may come to anything: each is attempted in some state, and fails with
some error or gets some answer. -/
def Trial.anyhow : Trial S P L (List (Attempt σ S P L)) where
  asks c before good bad :=
    (∀ s e, bad e (before ++ [⟨c, s, .error e⟩])) ∧ ∀ s x, good x (before ++ [⟨c, s, .ok x⟩])
  mono asked goes fails :=
    ⟨fun s e => fails e _ (asked.1 s e), fun s x => goes x _ (asked.2 s x)⟩

namespace Plan

variable {before : List (Attempt σ S P L)} {good : α → List (Attempt σ S P L) → Prop}
  {bad : SetupError → List (Attempt σ S P L) → Prop}

/-- However the calls of the plan go, its result satisfies `good` when it arrives, and its error
`bad` when it does not, together with the attempts up to there, which come after `before`. -/
abbrev Ensures (p : Plan S P L α) (before : List (Attempt σ S P L))
    (good : α → List (Attempt σ S P L) → Prop)
    (bad : SetupError → List (Attempt σ S P L) → Prop) : Prop :=
  p.Meets .anyhow before good bad

/-- A single call may fail with any error and get any answer, in any state. -/
theorem ensures_ask {c : Call S P L α} :
    (ask c).Meets .anyhow before good bad ↔
      (∀ s e, bad e (before ++ [⟨c, s, .error e⟩])) ∧
        ∀ s x, good x (before ++ [⟨c, s, .ok x⟩]) := meets_ask

/-- Where nothing is asked, every plan ensures it. -/
theorem ensures_true (p : Plan S P L α) : p.Ensures before (fun _ _ => True) fun _ _ => True := by
  induction p generalizing before with
  | done a => trivial
  | fail e => trivial
  | note e next ih => exact ih
  | call c wrap resume ih => exact ⟨fun _ _ => trivial, fun _ x => ih x⟩

/-- A run ends as the plan ensures, with the attempts that it makes after those before it. -/
theorem Ensures.run {p : Plan S P L α} (ensures : p.Ensures before good bad) (b : Backend σ S P L)
    (s : σ) :
    (∀ e, (p.run b s).result = .error e → bad e (before ++ p.attempts b s)) ∧
      ∀ a, (p.run b s).result = .ok a → good a (before ++ p.attempts b s) := by
  rw [← meets_ofSetup (t := .anyhow)]
  induction p generalizing before s with
  | done a =>
    rw [attempts, List.append_nil]
    exact ensures
  | fail e =>
    rw [attempts, List.append_nil]
    exact ensures
  | note e next ih => exact ih ensures s
  | call c wrap resume ih =>
    obtain ⟨refused, answers⟩ := ensures
    rcases answered : b.perform c s with ⟨e | x, t⟩
    · rw [attempts_of_error answered]
      simp only [Plan.run, answered]
      exact refused s e
    · rw [attempts_of_ok answered, ← List.singleton_append, ← List.append_assoc]
      simp only [Plan.run, answered]
      exact ih x (answers s x) t

end Plan

end LogTopology
