import LogTopology.Proofs.Plan.Meets
/-!
# Where a plan ends

A run of a plan on one backend is told by its result and by the state that it leaves. `Plan.Ends`
says both at once, as one condition on the two. `ends_iff_meets` shows that this is `Plan.Meets` in
the trial of the backend, where a call comes to what the backend makes of it, and the rules for
continued plans and for changed errors are read off from there. The rule for continued plans keeps
the state that a failing first part has reached, which nothing takes back.

What other runs of the same plan come to is not told, and the events of the run are passed over.

The backend is fixed here and the state runs through, so one law can speak of what a stage returns
and of what it has done to the engine. For laws that hold of all backends at once the other
conditions on plans are there.
-/

namespace LogTopology

variable {σ S P L α β : Type}

/-- The trial of one backend: a call comes to what the backend makes of it in its state. -/
def Backend.trial (b : Backend σ S P L) : Trial S P L σ where
  asks c s good bad := (∀ e t, b.perform c s = (.error e, t) → bad e t) ∧
    ∀ x t, b.perform c s = (.ok x, t) → good x t
  mono asked goes fails :=
    ⟨fun e t failed => fails e t (asked.1 e t failed),
      fun x t answered => goes x t (asked.2 x t answered)⟩

namespace Plan

variable {b : Backend σ S P L} {s : σ} {post : Setup α → σ → Prop}

/-- The result and the final state of a run satisfy `post`. -/
def Ends (b : Backend σ S P L) (p : Plan S P L α) (s : σ) (post : Setup α → σ → Prop) : Prop :=
  post (p.run b s).result (p.run b s).state

/-- Where a run ends is what the plan meets in the trial of the backend. -/
theorem ends_iff_meets {p : Plan S P L α} :
    p.Ends b s post ↔
      p.Meets b.trial s (fun a t => post (.ok a) t) fun e t => post (.error e) t := by
  induction p generalizing s with
  | done a => exact .rfl
  | fail e => exact .rfl
  | note e next ih => exact ih
  | call c wrap resume ih =>
    rcases answered : b.perform c s with ⟨e | x, t⟩
    · simp [Ends, run, Meets, Backend.trial, answered]
    · simpa [Ends, run, Meets, Backend.trial, answered] using ih x

/-- A plan that has its result ends with it, where it began. -/
theorem ends_pure {a : α} : Ends b (pure a) s post ↔ post (.ok a) s := .rfl

/-- A plan that fails ends with its error, where it began. -/
theorem ends_fail {e : SetupError} : Ends b (fail e) s post ↔ post (.error e) s := .rfl

/-- A report leaves the state alone. -/
theorem ends_report {e : Event} {post : Setup Unit → σ → Prop} :
    Ends b (report e) s post ↔ post (.ok ()) s := .rfl

/-- An outcome that is there without a call leaves the state alone. -/
theorem ends_ofSetup {o : Setup α} : Ends b (ofSetup o) s post ↔ post o s := by
  cases o <;> rfl

/-- A single call ends with what the backend makes of it. -/
theorem ends_ask {c : Call S P L α} :
    Ends b (ask c) s post ↔ post (b.perform c s).1 (b.perform c s).2 := by
  rcases answered : b.perform c s with ⟨e | x, t⟩ <;> simp only [Ends, ask, run, answered, id]

/-- What becomes of a condition when a plan goes on after its first part. -/
def afterwards (b : Backend σ S P L) (f : α → Plan S P L β) (post : Setup β → σ → Prop) :
    Setup α → σ → Prop
  | .ok a, t => (f a).Ends b t post
  | .error e, t => post (.error e) t

/-- A plan that goes on ends where its second part does, or where its first part failed. -/
theorem ends_bind {p : Plan S P L α} {f : α → Plan S P L β} {post : Setup β → σ → Prop} :
    (p >>= f).Ends b s post ↔ p.Ends b s (afterwards b f post) := by
  simp only [ends_iff_meets, meets_bind, afterwards]

/-- Changing the errors of a plan changes the error that it ends with. -/
theorem ends_mapError {f : SetupError → SetupError} {p : Plan S P L α} :
    (p.mapError f).Ends b s post ↔ p.Ends b s fun r t => post (r.mapError f) t := by
  rw [ends_iff_meets, meets_mapError, ends_iff_meets]
  exact .rfl

/-- A condition on the end may be weakened. -/
theorem Ends.imp {post weaker : Setup α → σ → Prop} {p : Plan S P L α} (ends : p.Ends b s post)
    (weaken : ∀ r t, post r t → weaker r t) : p.Ends b s weaker :=
  weaken _ _ ends

/-- A plan that goes on from what its first part comes to. -/
theorem Ends.bind {mid : Setup α → σ → Prop} {p : Plan S P L α} {f : α → Plan S P L β}
    {post : Setup β → σ → Prop} (first : p.Ends b s mid)
    (stops : ∀ e t, mid (.error e) t → post (.error e) t)
    (goesOn : ∀ a t, mid (.ok a) t → (f a).Ends b t post) : (p >>= f).Ends b s post := by
  refine ends_bind.mpr (first.imp ?_)
  rintro (e | a) t reached
  · exact stops e t reached
  · exact goesOn a t reached

end Plan

end LogTopology
