import LogTopology.SetupError
/-!
# Fields of a table

A field is looked up by its key and decoded. It is present, absent, or holds something else than it
should, and each caller says what absence means to it.
-/

namespace LogTopology.Document

/-- What looking up a field found. -/
inductive Lookup (α : Type) where
  | present (a : α)
  | absent
  | mismatch (m : Mismatch)

/-- Looks up a field. -/
def lookup {α : Type} (decode : Decoder α) (t : Table) (field : String) : Lookup α :=
  match t.get? field with
  | none => .absent
  | some v =>
    match decode v with
    | .ok a => .present a
    | .error m => .mismatch m

/-- A field that has to be there; `missing` is the error when it is not. -/
def required {α : Type} (decode : Decoder α) (t : Table) (field : String) (missing : SetupError) :
    Setup α :=
  match lookup decode t field with
  | .present a => .ok a
  | .absent => .error missing
  | .mismatch m => .error (.badField field none m)

/-- A field that may be left out. -/
def optional {α : Type} (decode : Decoder α) (t : Table) (field : String) : Setup (Option α) :=
  match lookup decode t field with
  | .present a => .ok (some a)
  | .absent => .ok none
  | .mismatch m => .error (.badField field none m)

/-- A field with a value that stands for its absence. -/
def optionalOr {α : Type} (decode : Decoder α) (t : Table) (field : String) (default : α) :
    Setup α :=
  (optional decode t field).map fun a => a.getD default

/-- A list of texts that has to be there. -/
def stringArray (t : Table) (field : String) (missing : SetupError) : Setup (List String) :=
  required Decoder.strings t field missing

end LogTopology.Document
