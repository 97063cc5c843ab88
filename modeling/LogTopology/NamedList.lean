/-!
# Writing to lists of named values

Tables of a document and tables of patterns are lists of names with values, one value for a name.
-/

namespace LogTopology

/-- Writes a value under a name, in the name's place if it has one and at the end otherwise. -/
def writeNamed {α β : Type} [DecidableEq α] (name : α) (b : β) : List (α × β) → List (α × β)
  | [] => [(name, b)]
  | e :: l => if e.1 = name then (name, b) :: l else e :: writeNamed name b l

end LogTopology
