import Mathlib.Data.List.Basic
import Mathlib.Logic.Relation
/-!
# Depth-first post-order

The order in which a depth-first walk leaves the nodes of a graph, as a relation: a node that was
listed before is passed over, and any other is listed after everything that its targets lead to.
The relation has no marks and no path in it. A graph with a cycle has no such order for the nodes
on the cycle, and `TargetsFirst.acyclic` says why: in a list where targets come first, following
targets leads strictly to the front.

The relation does not say that an order exists; the walk over the declared sinks shows that.

Since a visit lists its roots behind all that was listed before, what is listed keeps its place
(`isPrefix`), every root is listed in the end (`mem_of_root`), and a list in which targets come
first stays one (`targetsFirst`). These three are all that the sinks need of the order.
-/

namespace LogTopology.Sink

variable {α : Type} {targets : α → List α}

/-- `PostOrder targets seen roots out`: visiting the roots in order, with the nodes of `seen` listed
before, lists the nodes of `out`. -/
inductive PostOrder (targets : α → List α) : List α → List α → List α → Prop where
  | nil (seen : List α) : PostOrder targets seen [] seen
  | skip {seen roots out : List α} {n : α} (listed : n ∈ seen)
      (rest : PostOrder targets seen roots out) : PostOrder targets seen (n :: roots) out
  | visit {seen below roots out : List α} {n : α} (fresh : n ∉ seen)
      (down : PostOrder targets seen (targets n) below)
      (rest : PostOrder targets (below ++ [n]) roots out) : PostOrder targets seen (n :: roots) out

/-- Every node of a list comes after its targets. -/
def TargetsFirst (targets : α → List α) (l : List α) : Prop :=
  ∀ before n after, l = before ++ n :: after → ∀ t ∈ targets n, t ∈ before

/-- In the empty list all targets come first. -/
theorem TargetsFirst.nil : TargetsFirst targets [] := by
  intro before n after h
  simp at h

/-- A node may follow a list that has all of its targets. -/
theorem TargetsFirst.snoc {l : List α} {n : α} (first : TargetsFirst targets l)
    (covered : ∀ t ∈ targets n, t ∈ l) : TargetsFirst targets (l ++ [n]) := by
  intro before m after h t ht
  rcases List.eq_nil_or_concat after with rfl | ⟨after, last, rfl⟩
  · obtain ⟨rfl, hm⟩ := List.append_inj' h rfl
    cases hm
    exact covered t ht
  · rw [List.concat_eq_append, ← List.cons_append, ← List.append_assoc] at h
    exact first before m after (List.append_inj' h rfl).1 t ht

/-- What a listed node leads to stands before it. -/
theorem TargetsFirst.mem_of_leads {l : List α} (first : TargetsFirst targets l) {n m : α}
    (leads : Relation.TransGen (fun a b => b ∈ targets a) n m) :
    ∀ before after, l = before ++ n :: after → m ∈ before := by
  induction leads using Relation.TransGen.head_induction_on with
  | single edge =>
    intro before after h
    exact first before _ after h _ edge
  | head edge _ ih =>
    intro before after h
    obtain ⟨before', after', rfl⟩ := List.append_of_mem (first before _ after h _ edge)
    have split := ih before' (after' ++ _ :: after) (by rw [h, List.append_assoc]; rfl)
    exact List.mem_append_left _ split

/-- No listed node leads back to itself. -/
theorem TargetsFirst.acyclic {l : List α} (first : TargetsFirst targets l) {n : α} (mem : n ∈ l) :
    ¬ Relation.TransGen (fun a b => b ∈ targets a) n n := by
  intro leads
  obtain ⟨before, after, h, fresh⟩ := List.eq_append_cons_of_mem mem
  exact fresh (first.mem_of_leads leads before after h)

namespace PostOrder

/-- Visiting some roots and then others is visiting all of them. -/
theorem append {seen mid out first second : List α} (h : PostOrder targets seen first mid)
    (rest : PostOrder targets mid second out) : PostOrder targets seen (first ++ second) out := by
  induction h with
  | nil seen => exact rest
  | skip listed _ ih => exact .skip listed (ih rest)
  | visit fresh down _ _ ih => exact .visit fresh down (ih rest)

/-- What was listed before stays in its place. -/
theorem isPrefix {seen roots out : List α} (h : PostOrder targets seen roots out) :
    seen <+: out := by
  induction h with
  | nil seen => exact List.prefix_refl seen
  | skip _ _ ih => exact ih
  | visit _ _ _ ihDown ihRest => exact ihDown.trans ((List.prefix_append _ _).trans ihRest)

/-- Every root is listed. -/
theorem mem_of_root {seen roots out : List α} (h : PostOrder targets seen roots out) :
    ∀ n ∈ roots, n ∈ out := by
  induction h with
  | nil seen => simp
  | skip listed rest ih =>
    intro n hn
    rcases List.mem_cons.mp hn with rfl | hn
    · exact rest.isPrefix.subset listed
    · exact ih n hn
  | visit _ _ rest _ ihRest =>
    intro n hn
    rcases List.mem_cons.mp hn with rfl | hn
    · exact rest.isPrefix.subset (by simp)
    · exact ihRest n hn

/-- Every node is listed after its targets. -/
theorem targetsFirst {seen roots out : List α} (h : PostOrder targets seen roots out)
    (first : TargetsFirst targets seen) : TargetsFirst targets out := by
  induction h with
  | nil seen => exact first
  | skip _ _ ih => exact ih first
  | visit _ down _ ihDown ihRest => exact ihRest ((ihDown first).snoc down.mem_of_root)

end PostOrder

end LogTopology.Sink
