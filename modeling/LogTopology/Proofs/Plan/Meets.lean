import LogTopology.Plan
import LogTopology.Proofs.Setup
/-!
# Conditions on plans

A plan is a tree that ends in results and errors and branches at its calls, over what a call may come
to. To prove something of a plan is to go through this tree with what is known on the way: the calls
that were answered, the calls that were attempted, or the state of one backend. A `Trial` says what is
to be shown at a call, and `Plan.Meets` asks it of every call of the plan. It leaves one condition on
the result and one on the error, each together with what is known at the end: a weakest precondition
with the meaning of a call left open.

## Main definitions

* `Trial`: what is to be shown at a call, for given conditions on its answer and on its error.
* `Plan.Meets`: what is to be shown of a whole plan.

## Main results

There is one rule for each way of putting plans together: `meets_pure`, `meets_fail`, `meets_report`,
`meets_ask`, `meets_ofSetup`, `meets_bind`, `meets_mapError`, and `Meets.imp` for weaker conditions.
They hold in every trial. The trials in use are those of a rule for calls (`Plan.Obeys`), of calls
that may come to anything (`Plan.Ensures`) and of one backend (`Plan.Ends`); what they say about runs
is proved beside them, not here.

The events that a plan reports are passed over by all of this.
-/

namespace LogTopology

universe u

/-- What is to be shown at a call when `w` is known: a condition on its answer and one on its error,
each with what is known after it. Weaker conditions take no more to be shown. -/
structure Trial (S P L : Type) (W : Type u) where
  asks : {β : Type} → Call S P L β → W → (β → W → Prop) → (SetupError → W → Prop) → Prop
  mono : ∀ {β : Type} {c : Call S P L β} {w : W} {good weaker : β → W → Prop}
    {bad milder : SetupError → W → Prop}, asks c w good bad → (∀ x w, good x w → weaker x w) →
      (∀ e w, bad e w → milder e w) → asks c w weaker milder

namespace Plan

variable {S P L α β : Type} {W : Type u} {t : Trial S P L W} {w : W} {good : α → W → Prop}
  {bad : SetupError → W → Prop}

/-- Every call of the plan stands its trial, from what is known at the beginning on. When the plan
arrives, its result satisfies `good`, and when it does not, its error satisfies `bad`. -/
def Meets (t : Trial S P L W) : Plan S P L α → W → (α → W → Prop) → (SetupError → W → Prop) → Prop
  | done a, w, good, _ => good a w
  | fail e, w, _, bad => bad e w
  | note _ next, w, good, bad => next.Meets t w good bad
  | call c wrap resume, w, good, bad =>
    t.asks c w (fun x w => (resume x).Meets t w good bad) fun e w => bad (wrap e) w

/-- A plan that has its result meets what the result satisfies. -/
theorem meets_pure {a : α} : (pure a : Plan S P L α).Meets t w good bad ↔ good a w := .rfl

/-- A plan that fails meets what its error satisfies. -/
theorem meets_fail {e : SetupError} : (fail e : Plan S P L α).Meets t w good bad ↔ bad e w := .rfl

/-- A report changes nothing that is known. -/
theorem meets_report {e : Event} {good : Unit → W → Prop} :
    (report e : Plan S P L Unit).Meets t w good bad ↔ good () w := .rfl

/-- A single call meets what its trial asks. -/
theorem meets_ask {c : Call S P L α} : (ask c).Meets t w good bad ↔ t.asks c w good bad := .rfl

/-- An outcome that is there without a call meets the condition on what it is. -/
theorem meets_ofSetup {o : Setup α} :
    (ofSetup o : Plan S P L α).Meets t w good bad ↔
      (∀ e, o = .error e → bad e w) ∧ ∀ a, o = .ok a → good a w := by
  cases o with
  | error e =>
    constructor
    · intro fails
      refine ⟨fun e' same => ?_, fun a same => absurd same Setup.error_ne_ok⟩
      cases same
      exact fails
    · rintro ⟨fails, -⟩
      exact fails e rfl
  | ok a =>
    constructor
    · intro goes
      refine ⟨fun e same => absurd same.symm Setup.error_ne_ok, fun a' same => ?_⟩
      cases same
      exact goes
    · rintro ⟨-, goes⟩
      exact goes a rfl

/-- A plan that goes on meets a condition when its first part leaves what the second part needs, and
an error of the first part is already one of the whole. -/
theorem meets_bind {p : Plan S P L α} {f : α → Plan S P L β} {good : β → W → Prop} :
    (p >>= f).Meets t w good bad ↔ p.Meets t w (fun a w => (f a).Meets t w good bad) bad := by
  change (p.andThen f).Meets t w good bad ↔ _
  induction p generalizing w with
  | done a => exact .rfl
  | fail e => exact .rfl
  | note e next ih => exact ih
  | call c wrap resume ih =>
    -- Behind each answer both sides are the same condition, so the trial asks the same of the call.
    have same := funext fun x => funext fun w => propext (ih x (w := w))
    exact iff_of_eq (congrArg (t.asks c w · _) same)

/-- Changing the errors of a plan changes what is asked of them. -/
theorem meets_mapError {f : SetupError → SetupError} {p : Plan S P L α} :
    (p.mapError f).Meets t w good bad ↔ p.Meets t w good fun e w => bad (f e) w := by
  induction p generalizing w with
  | done a => exact .rfl
  | fail e => exact .rfl
  | note e next ih => exact ih
  | call c wrap resume ih =>
    have same := funext fun x => funext fun w => propext (ih x (w := w))
    exact iff_of_eq (congrArg (t.asks c w · _) same)

/-- A plan that meets conditions meets weaker ones. -/
theorem Meets.imp {weaker : α → W → Prop} {milder : SetupError → W → Prop} {p : Plan S P L α}
    (meets : p.Meets t w good bad) (goes : ∀ a w, good a w → weaker a w)
    (fails : ∀ e w, bad e w → milder e w) : p.Meets t w weaker milder := by
  induction p generalizing w with
  | done a => exact goes a w meets
  | fail e => exact fails e w meets
  | note e next ih => exact ih meets
  | call c wrap resume ih => exact t.mono meets (fun x _ rest => ih x rest) fun e => fails (wrap e)

end Plan

end LogTopology
