import LogTopology.Document.Section
/-!
# The logger entries of a document

A document serves as a store of logger levels: each logger has an entry in the section `logger`, and
its level is written to or removed from there. The section goes when its last entry goes.
-/

namespace LogTopology.Roster

open Document

/-- The section of the loggers. -/
def key : String := "logger"

/-- Writes the level of a logger, into its entry if it has one and into a new one otherwise. -/
def upsertLevel (doc : Table) (name : String) (level : Level) : Setup Table := do
  let entries := (← tableArray doc key).getD []
  if entries.any (isNamed name) then
    return setEntries doc key (overwriteNamed name [("level", .text level.name)] entries)
  else
    return setEntries doc key (entries ++ [[("name", .text name), ("level", .text level.name)]])

/-- Removes the entry of a logger, and tells the document without it; nothing is told when no entry
has the name. -/
def remove? (doc : Table) (name : String) : Setup (Option Table) := do
  match ← tableArray doc key with
  | none => throw .noLoggerArray
  | some entries =>
    match positionOf? entries name with
    | none => return none
    | some i =>
      let rest := entries.eraseIdx i
      return some (if rest.isEmpty then doc.erase key else setEntries doc key rest)

end LogTopology.Roster
