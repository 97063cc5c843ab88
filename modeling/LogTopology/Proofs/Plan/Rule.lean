import LogTopology.Proofs.Plan.Meets
import LogTopology.Proofs.Plan.Refusal
/-!
# Rules for calls

A rule says which calls may be made after which others. Whether a plan obeys a rule is a question
about the plan alone: `Plan.Obeys` asks it of every call that the plan makes for some answers, and
leaves a condition on the result and on the calls up to there. It is `Plan.Meets` in the trial of the
rule, so it is proved of a plan by the rules for putting plans together that hold in every trial.

`Obeys.attempts_allowed` brings it down to runs: on any backend, whichever call fails, each call that
a run attempts is allowed after the calls answered before it. `Obeys.run_of_no_call` is the case of
the rule that allows nothing: such a plan comes to the same on every backend, and leaves it alone.

What a backend does in return is not told here, and neither is which errors a plan can end with.
-/

namespace LogTopology

variable {σ S P L α β : Type}

/-- Which calls may follow the calls that were answered before. -/
structure CallRule (S P L : Type) : Type 1 where
  allows : {β : Type} → List (Answered S P L) → Call S P L β → Prop

/-- The trial of a rule: a call is allowed after those answered before, and may get any answer. -/
def CallRule.trial (rule : CallRule S P L) : Trial S P L (List (Answered S P L)) where
  asks c before good _ := rule.allows before c ∧ ∀ x, good x (before ++ [⟨c, x⟩])
  mono asked goes _ := ⟨asked.1, fun x => goes x _ (asked.2 x)⟩

namespace Plan

variable {rule : CallRule S P L} {before : List (Answered S P L)}
  {post : α → List (Answered S P L) → Prop}

/-- Whatever the answers, every call of the plan is allowed after those before it, and when the plan
arrives its result and the calls up to there satisfy `post`. Nothing is asked of errors. -/
abbrev Obeys (rule : CallRule S P L) (p : Plan S P L α) (before : List (Answered S P L))
    (post : α → List (Answered S P L) → Prop) : Prop :=
  p.Meets rule.trial before post fun _ _ => True

/-- A single call obeys a rule when it is allowed, and what is asked after it holds for every
answer. -/
theorem obeys_ask {c : Call S P L α} {bad : SetupError → List (Answered S P L) → Prop} :
    (ask c).Meets rule.trial before post bad ↔
      rule.allows before c ∧ ∀ x, post x (before ++ [⟨c, x⟩]) := meets_ask

/-- An outcome that is there without a call obeys every rule. -/
theorem obeys_ofSetup {o : Setup α} :
    (ofSetup o : Plan S P L α).Meets rule.trial before post (fun _ _ => True) ↔
      ∀ a, o = .ok a → post a before :=
  meets_ofSetup.trans (and_iff_right fun _ _ => trivial)

/-- Rules ask nothing of errors, so they may be left out when a condition on the rest is weakened. -/
theorem Obeys.imp {weaker : α → List (Answered S P L) → Prop} {p : Plan S P L α}
    (obeys : p.Obeys rule before post) (weaken : ∀ a after, post a after → weaker a after) :
    p.Obeys rule before weaker :=
  Meets.imp obeys weaken fun _ _ => id

/-- A run of a plan that obeys a rule: each call that it attempts is allowed after the calls that
were answered before. -/
theorem Obeys.attempts_allowed {p : Plan S P L α} (obeys : p.Obeys rule before post)
    (b : Backend σ S P L) (s : σ) {front back : List (Attempt σ S P L)} {a : Attempt σ S P L}
    (split : p.attempts b s = front ++ a :: back) :
    rule.allows (before ++ front.filterMap Attempt.answered?) a.call := by
  induction p generalizing before s front with
  | done _ => simp [attempts] at split
  | fail _ => simp [attempts] at split
  | note _ next ih => exact ih obeys s split
  | call c wrap resume ih =>
    obtain ⟨allowed, rest⟩ := obeys
    cases front with
    | nil =>
      obtain ⟨o, later, first⟩ : ∃ o later, (call c wrap resume).attempts b s = ⟨c, s, o⟩ :: later :=
        exists_attempts_eq_cons
      cases first.symm.trans split
      rw [List.filterMap_nil, List.append_nil]
      exact allowed
    | cons head front =>
      obtain ⟨x, t, -, rfl, later⟩ := exists_answered_of_attempts split
      have after := ih x (rest x) t later
      rw [List.append_assoc, List.singleton_append] at after
      rwa [List.filterMap_cons]

/-- Only the last attempt of a run can be one without an answer. -/
theorem answered_of_before {b : Backend σ S P L} {p : Plan S P L α} {s : σ}
    {front back : List (Attempt σ S P L)} {a : Attempt σ S P L}
    (split : p.attempts b s = front ++ a :: back) :
    ∀ x ∈ front, ∃ y, x.answered? = some y := by
  induction p generalizing s front with
  | done _ => simp [attempts] at split
  | fail _ => simp [attempts] at split
  | note _ next ih => exact ih split
  | call c wrap resume ih =>
    cases front with
    | nil => exact fun x mem => absurd mem List.not_mem_nil
    | cons head front =>
      obtain ⟨x, t, -, rfl, later⟩ := exists_answered_of_attempts split
      exact List.forall_mem_cons.mpr ⟨⟨_, rfl⟩, ih x later⟩

/-- A plan that makes no call at all comes to the same on every backend, and leaves it alone. -/
theorem Obeys.run_of_no_call {p : Plan S P L α}
    (silent : p.Obeys ⟨fun _ _ => False⟩ before post) (b : Backend σ S P L) (s : σ) :
    p.Yields [] (p.run b s).result ∧ (p.run b s).state = s := by
  induction p with
  | done a => exact ⟨.done a, rfl⟩
  | fail e => exact ⟨.fail e, rfl⟩
  | note e next ih =>
    obtain ⟨yields, same⟩ := ih silent
    exact ⟨.note yields, same⟩
  | call c wrap resume => exact silent.1.elim

end Plan

end LogTopology
