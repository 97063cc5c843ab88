import LogTopology.Build
import LogTopology.Document.Writer
import LogTopology.Engine.Backend
import LogTopology.Roster
/-!
# Documents in files

Set-ups that start from a file, with or without an overlay in a second file and with or without tags
to be filled, and files that keep the levels of loggers. An operation that fails, or finds nothing
to do, leaves the files as they were.
-/

namespace LogTopology.Engine

open Document (Table)

/-- The text of a file. -/
def readText (d : Disk) (path : String) : Setup String :=
  match d.readText path with
  | .ok s => .ok s
  | .error .notFound => .error (.missingFile path)
  | .error e => .error (.unreadableFile path e.message)

/-- The document that the text of a file holds. -/
def parseFile (path text : String) : Setup Table :=
  (Build.parse text).within (.parsing path)

/-- The document in a file. -/
def readDocument (d : Disk) (path : String) : Setup Table := do
  parseFile path (← readText d path)

/-- Writes a document to a file. -/
def writeDocument (d : Disk) (path : String) (doc : Table) : Setup Disk :=
  (d.writeFile path (Text.encode (Document.write doc).toList)).mapError fun e =>
    .within (.writing path) (.reported e.message)

/-- Writes the level of a logger to a file, beside what the file holds or, with `overwrite`, in its
place. -/
def saveLevel (d : Disk) (path name : String) (level : Level) (overwrite : Bool) : Setup Disk := do
  let doc ←
    if overwrite || !d.pathExists path then pure []
    else (readDocument d path).within (.saving path)
  writeDocument d path (← Roster.upsertLevel doc name level)

/-- Removes the entry of a logger from a file, and tells the disk after it; nothing when no entry
has the name. -/
def deleteEntry? (d : Disk) (path name : String) : Setup (Option Disk) := do
  let doc ← (readDocument d path).within (.deleting path name)
  match ← (Roster.remove? doc name).within (.within path) with
  | none => return none
  | some doc => return some (← writeDocument d path doc)

/-- A plan for the engine. -/
abbrev EnginePlan := Plan SinkRef Nat Nat

/-- Fills the tags in the text of a file, if there are bindings to fill them with, and reads the
document that it then holds. -/
def documentIn (d : Disk) (path : String) (bindings : Option Template.Bindings) :
    EnginePlan Table := do
  let text ← Plan.ofSetup (readText d path)
  match bindings with
  | none => Plan.ofSetup (parseFile path text)
  | some bindings => Plan.ofSetup (parseFile path (← Build.fill text bindings))

/-- Builds the document in a file. -/
def fromFile (d : Disk) (path : String) (bindings : Option Template.Bindings) :
    EnginePlan Unit := do
  Build.document (← documentIn d path bindings)

/-- Builds the document in a file, with the one in a second file over it when there is such a file;
tells whether there was. -/
def fromFiles (d : Disk) (path overlay : String) (bindings : Option Template.Bindings) :
    EnginePlan Bool := do
  let base ← documentIn d path bindings
  if d.pathExists overlay then
    Build.withOverlay base (← documentIn d overlay bindings)
    return true
  else
    Build.document base
    return false

end LogTopology.Engine
