import LogTopology.Journal
import LogTopology.Proofs.Plan.Refusal
/-!
# The journal as a backend

What the laws about plans need to know of the journal: unless it is told to, it refuses nothing
(`backend_neverFails`), and what it is told to refuse are refusals like any others
(`backend_eq_refusing`). So runs on the journal can be looked at in examples of laws that are about
all backends, with a label for each call that is to be refused.
-/

namespace LogTopology.Journal

/-- No refusal is asked for, so none is met. -/
theorem label?_filter_nil {β : Type} (c : Call Item Item Item β) :
    (label? c).filter (· ∈ ([] : List String)) = none := by
  cases label? c <;> rfl

/-- A journal that is told of no call to refuse never fails. -/
theorem backend_neverFails : (backend []).NeverFails := by
  intro β c s
  simp only [backend, label?_filter_nil c]
  exact ⟨_, rfl⟩

/-- The refusals of the calls with the given labels. -/
def refusals (refused : List String) : Refusals State Item Item Item where
  error? c _ :=
    ((label? c).filter (· ∈ refused)).map fun label => .reported s!"injected {label}"

/-- A journal that is told which calls to refuse is the one that is not, made to refuse them. -/
theorem backend_eq_refusing (refused : List String) :
    backend refused = (backend []).refusing (refusals refused) := by
  refine congrArg Backend.mk ?_
  funext β c s
  simp only [backend, refusals, label?_filter_nil c]
  cases (label? c).filter (· ∈ refused) <;> rfl

end LogTopology.Journal
