import LogTopology.Document.Section
import LogTopology.Sink.Kind
/-!
# Sink declarations

The entries of the section `sink` that have been found to have a name of their own and a type that
exists. What else they say is read when the sink is made.
-/

namespace LogTopology.Sink

/-- A declared sink. -/
structure Declaration where
  name : String
  family : Family
  table : Document.Table

/-- Checks the name and the type of an entry; `taken` holds the names of the entries before it. -/
def Declaration.ofEntry (taken : List String) (entry : Document.Table) : Setup Declaration := do
  match Document.entryName? entry with
  | none => throw (.nameless "sinks")
  | some name =>
    match (entry.get? "type").bind Document.Value.text? with
    | none => throw (.typelessSink name)
    | some type =>
      let family ← (Family.parse type).within (.sink name)
      if name ∈ taken then throw (.repeatedSink name)
      return ⟨name, family, entry⟩

/-- Checks the names and types of all entries; `taken` holds the names of those before them. -/
def Declaration.collect (taken : List String) : List Document.Table → Setup (List Declaration)
  | [] => return []
  | entry :: entries => do
    let d ← ofEntry taken entry
    return d :: (← collect (taken ++ [d.name]) entries)

/-- The declaration of a name. -/
def Declaration.find? (ds : List Declaration) (name : String) : Option Declaration :=
  ds.find? fun d => d.name == name

end LogTopology.Sink
