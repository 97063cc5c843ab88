import LogTopology.SetupError
/-!
# Outcomes of a set-up

How an operation that went well is taken apart: each of its parts went well (`bind_eq_ok`), and a
context around it makes no difference then (`within_eq_ok`). What the results of an operation have
in common, and what its errors have in common, is told from its parts as well: `Ends good bad` says
both, and `Ends.bind` reads it off an operation that is continued. `FailsWith` keeps the errors
only.

These are laws of operations that end and have no state. Plans, which ask for calls on the way, have
laws of the same shape with the calls in them.
-/

namespace LogTopology.Setup

variable {ε α β : Type}

/-- A continued operation went well when both of its parts did. -/
theorem bind_eq_ok {x : Except ε α} {f : α → Except ε β} {b : β} :
    (x >>= f) = .ok b ↔ ∃ a, x = .ok a ∧ f a = .ok b := by
  cases x with
  | error e =>
    constructor
    · intro h
      cases h
    · rintro ⟨a, h, _⟩
      cases h
  | ok a =>
    constructor
    · intro h
      exact ⟨a, rfl, h⟩
    · rintro ⟨_, h, hb⟩
      cases h
      exact hb

/-- An error is no success. -/
theorem error_ne_ok {e : ε} {a : α} : (.error e : Except ε α) ≠ .ok a := by
  intro same
  cases same

/-- A mapped operation went well when the operation did. -/
theorem map_eq_ok {x : Except ε α} {f : α → β} {b : β} :
    f <$> x = .ok b ↔ ∃ a, x = .ok a ∧ f a = b := by
  cases x with
  | error e =>
    constructor
    · intro h
      cases h
    · rintro ⟨a, h, -⟩
      cases h
  | ok a =>
    constructor
    · intro h
      cases h
      exact ⟨a, rfl, rfl⟩
    · rintro ⟨_, h, rfl⟩
      cases h
      rfl

/-- A context is added to errors only, so an operation in a context goes well as without it. -/
theorem within_eq_ok {context : Context} {o : Setup α} {a : α} :
    o.within context = .ok a ↔ o = .ok a := by
  cases o with
  | error e =>
    constructor
    · intro h
      cases h
    · intro h
      cases h
  | ok b => exact Iff.rfl

/-- An operation that goes on from something that may be left open. -/
theorem optional_bind_eq_ok {x : Except ε (Option α)} {f : Option α → Except ε β} {b : β} :
    (x >>= f) = .ok b ↔
      (x = .ok none ∧ f none = .ok b) ∨ ∃ a, x = .ok (some a) ∧ f (some a) = .ok b := by
  rw [bind_eq_ok]
  constructor
  · rintro ⟨found, rfl, h⟩
    cases found with
    | none => exact .inl ⟨rfl, h⟩
    | some a => exact .inr ⟨a, rfl, h⟩
  · rintro (⟨rfl, h⟩ | ⟨a, rfl, h⟩)
    · exact ⟨none, rfl, h⟩
    · exact ⟨some a, rfl, h⟩

/-! ## Results and errors -/

/-- The operation ends with a result that satisfies `good` or with an error that satisfies `bad`. -/
def Ends (good : α → Prop) (bad : ε → Prop) : Except ε α → Prop
  | .ok a => good a
  | .error e => bad e

variable {good : α → Prop} {bad : ε → Prop} {o : Except ε α}

/-- What all results satisfy, each of them does. -/
theorem Ends.of_ok {a : α} (ends : Ends good bad o) (done : o = .ok a) : good a := by
  subst done
  exact ends

/-- What all errors satisfy, each of them does. -/
theorem Ends.of_error {e : ε} (ends : Ends good bad o) (failed : o = .error e) : bad e := by
  subst failed
  exact ends

/-- A continued operation fails with an error of its first part or with one of its second part,
which goes on from a result of the first. -/
theorem Ends.bind {next : β → Prop} {f : α → Except ε β} (first : Ends good bad o)
    (rest : ∀ a, good a → Ends next bad (f a)) : Ends next bad (o >>= f) := by
  cases o with
  | error e => exact first
  | ok a => exact rest a first

/-- Mapping the result leaves the errors as they are. -/
theorem Ends.map {next : β → Prop} {f : α → β} (ends : Ends good bad o)
    (goes : ∀ a, good a → next (f a)) : Ends next bad (f <$> o) := by
  cases o with
  | error e => exact ends
  | ok a => exact goes a ends

/-- Whatever error the operation ends with satisfies `bad`. -/
abbrev FailsWith (bad : ε → Prop) (o : Except ε α) : Prop :=
  Ends (fun _ => True) bad o

end LogTopology.Setup
