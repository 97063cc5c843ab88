import LogTopology.Document.Section
/-!
# Reading fields and sections

A field that has to be there is a field that may be left out, found (`required_eq_ok`): what is
known of optional fields is known of required ones. The entries of a section (`entriesOf`) are those
that are read from it, and none where the document does not have it, so that statements about all
entries need not ask whether there is a section. They say nothing where a section is something else
than an array of tables; such a section has no entries here, and reading it is an error.
-/

namespace LogTopology.Document

/-- The text under a key, if there is one. -/
def textField? (entry : Table) (key : String) : Option String :=
  (optional .string entry key).toOption.join

/-- The entries of a section. -/
def entriesOf (doc : Table) (key : String) : List Table :=
  (tableArray doc key).toOption.join.getD []

variable {α : Type} {decode : Decoder α} {t : Table} {key : String} {missing : SetupError} {a : α}

/-- A field that has to be there is read just when the field that may be left out is found. -/
theorem required_eq_ok :
    required decode t key missing = .ok a ↔ optional decode t key = .ok (some a) := by
  unfold required optional
  cases lookup decode t key with
  | present b =>
    constructor
    · intro h
      cases h
      rfl
    · intro h
      cases h
      rfl
  | absent | mismatch =>
    constructor
    · intro h
      cases h
    · intro h
      cases h

/-- The text under a key is that of the field, where it is a text. -/
theorem textField?_eq_some {entry : Table} {text : String} :
    textField? entry key = some text ↔ optional .string entry key = .ok (some text) := by
  unfold textField?
  cases optional .string entry key with
  | error e =>
    constructor
    · intro h
      cases h
    · intro h
      cases h
  | ok found =>
    constructor
    · intro h
      rw [show found = some text from h]
    · intro h
      cases h
      rfl

/-- The entries of a section are those that are read from it. -/
theorem entriesOf_eq {doc : Table} {entries : List Table}
    (h : tableArray doc key = .ok (some entries)) : entriesOf doc key = entries := by
  unfold entriesOf
  rw [h]
  rfl

/-- A section that is not there has no entries. -/
theorem entriesOf_eq_nil {doc : Table} (h : tableArray doc key = .ok none) :
    entriesOf doc key = [] := by
  unfold entriesOf
  rw [h]
  rfl

end LogTopology.Document
