import LogTopology.Document.Section
import LogTopology.Event
/-!
# Overlays

An overlay changes a document without repeating it. In the sections `sink`, `pattern` and `logger`
an entry of the overlay writes its fields over the first entry of the same name, or is appended when
there is none; a section that the document lacks is taken over whole. Nothing else changes. When an
overlay is refused, what was merged before the offending entry stays.
-/

namespace LogTopology.Overlay

open Document

/-- The sections that an overlay reaches, in the order in which they are merged. -/
def sections : List String :=
  ["sink", "pattern", "logger"]

/-- What has become of a document, what was reported on the way, and whether all went well. -/
structure Merged (α : Type) where
  result : α
  events : List Event
  outcome : Setup Unit

/-- The report on an entry or a section. -/
def report (message : String) (fields : List (String × FieldValue)) : Event :=
  .about .overlays .debug message fields

/-- Merges the entries of an overlay into those of the document, one after the other. -/
def mergeEntries (key : String) : List Table → List Table → Merged (List Table)
  | base, [] => ⟨base, [], .ok ()⟩
  | base, entry :: overlay =>
    match entryName? entry with
    | none => ⟨base, [], .error (.namelessOverride key)⟩
    | some name =>
      let fields := [("section", .text key), ("name", .text name)]
      let (base, event) :=
        if base.any (isNamed name) then
          (overwriteNamed name entry base, report "merged override entry" fields)
        else (base ++ [entry], report "appended override entry" fields)
      let rest := mergeEntries key base overlay
      ⟨rest.result, event :: rest.events, rest.outcome⟩

/-- Merges one section. -/
def mergeSection (base overlay : Table) (key : String) : Merged Table :=
  match tableArray overlay key with
  | .error e => ⟨base, [], .error e⟩
  | .ok none => ⟨base, [], .ok ()⟩
  | .ok (some entries) =>
    match tableArray base key with
    | .error e => ⟨base, [], .error e⟩
    | .ok none =>
      ⟨setEntries base key entries,
        [report "adopted override section" [("section", .text key)]], .ok ()⟩
    | .ok (some present) =>
      let merged := mergeEntries key present entries
      ⟨setEntries base key merged.result, merged.events, merged.outcome⟩

/-- Merges the given sections, up to the first that fails. -/
def mergeSections (base overlay : Table) : List String → Merged Table
  | [] => ⟨base, [], .ok ()⟩
  | key :: keys =>
    let first := mergeSection base overlay key
    match first.outcome with
    | .error e => ⟨first.result, first.events, .error e⟩
    | .ok () =>
      let rest := mergeSections first.result overlay keys
      ⟨rest.result, first.events ++ rest.events, rest.outcome⟩

/-- Merges an overlay into a document. -/
def merge (base overlay : Table) : Merged Table :=
  mergeSections base overlay sections

end LogTopology.Overlay
