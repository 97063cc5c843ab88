import LogTopology.PathText
import LogTopology.Text.Utf8
/-!
# Files and directories

The files that sinks and documents live in. A place is the list of names that leads to it from the
working directory, or from the root when it starts with a slash. Places hold directories or files;
the contents of a file are kept apart under a number, so that an open file stays the same when its
place changes. Two devices are there as well: one that swallows everything and one that is always
full.

There are no links and no permissions. Of the root only the two devices are known, and every place
above the working directory is a directory.
-/

namespace LogTopology

open Text (Bytes)

/-- Why an operation on files fails. -/
inductive FileError where
  | notFound
  | notDirectory
  | isDirectory
  | alreadyExists
  | storageFull
  | nameTooLong
  | badName
  | badText
  deriving DecidableEq, Repr

/-- The message of a failure. -/
def FileError.message : FileError → String
  | notFound => "No such file or directory (os error 2)"
  | notDirectory => "Not a directory (os error 20)"
  | isDirectory => "Is a directory (os error 21)"
  | alreadyExists => "File exists (os error 17)"
  | storageFull => "No space left on device (os error 28)"
  | nameTooLong => "File name too long (os error 36)"
  | badName => "file name contained an unexpected NUL byte"
  | badText => "stream did not contain valid UTF-8"

/-- A place in the file system. -/
abbrev Place := List String

/-- What a place holds. -/
inductive Item where
  | directory
  | file (id : Nat)
  /-- Swallows all that is written. -/
  | nothing
  /-- Refuses all that is written. -/
  | full
  deriving DecidableEq, Repr

/-- The files and directories: what each place holds, and the contents of the files by number. -/
structure Disk where
  items : List (Place × Item)
  contents : List Bytes
  deriving DecidableEq, Repr

namespace Disk

/-- The disk with an empty working directory. -/
def empty : Disk :=
  ⟨[(["/"], .directory), (["/", "dev"], .directory), (["/", "dev", "null"], .nothing),
    (["/", "dev", "full"], .full)], []⟩

/-- What a place holds. The working directory and the directories above it are always there. -/
def at? (d : Disk) (p : Place) : Option Item :=
  if p.all (· = "..") then some .directory else d.items.lookup p

/-- Whether a place holds a directory. -/
def isDirectory (d : Disk) (p : Place) : Bool :=
  d.at? p = some .directory

/-- The contents of a file. -/
def bytes (d : Disk) (id : Nat) : Bytes :=
  d.contents[id]?.getD []

/-- The place that a name leads to. -/
def into (p : Place) (name : String) : Place :=
  if name = ".." then
    if p.all (· = "..") then p ++ [".."] else if p = ["/"] then p else p.dropLast
  else p ++ [name]

/-- Follows names, through directories only. -/
def follow (d : Disk) : Place → List String → Except FileError Place
  | p, [] => .ok p
  | p, name :: names =>
    match d.at? p with
    | some .directory =>
      if name = "" || name = "." then d.follow p names
      else if 255 < name.utf8ByteSize then .error .nameTooLong
      else d.follow (into p name) names
    | some _ => .error .notDirectory
    | none => .error .notFound

/-- Whether a path ends with a slash and so can mean a directory only. -/
def endsWithSlash (path : String) : Bool :=
  path.toList.getLast? = some '/'

/-- The place of a path. Whatever the place holds, a directory has to lead there. -/
def locate (d : Disk) (path : String) : Except FileError Place :=
  let cs := path.toList
  let names := (cs.splitOn '/').map String.ofList
  let names := if endsWithSlash path then names.dropLast else names
  if '\x00' ∈ cs then .error .badName
  else if cs = [] then .error .notFound
  else if 4095 < path.utf8ByteSize then .error .nameTooLong
  else d.follow (if cs.head? = some '/' then ["/"] else []) names

/-- Whether there is something at a path. -/
def pathExists (d : Disk) (path : String) : Bool :=
  match d.locate path with
  | .ok p => (d.at? p).isSome && (!endsWithSlash path || d.isDirectory p)
  | .error _ => false

/-- Whether there is a directory at a path. -/
def pathIsDirectory (d : Disk) (path : String) : Bool :=
  match d.locate path with
  | .ok p => d.isDirectory p
  | .error _ => false

/-- Makes a directory. -/
def makeDirectory (d : Disk) (path : String) : Except FileError Disk := do
  let p ← d.locate path
  if (d.at? p).isSome then throw .alreadyExists
  return { d with items := d.items ++ [(p, .directory)] }

/-- Makes a directory if there is none. -/
def ensureDirectory (d : Disk) (path : String) : Except FileError Disk :=
  match d.makeDirectory path with
  | .ok d => .ok d
  | .error e => if d.pathIsDirectory path then .ok d else .error e

/-- Makes a directory and, where they are missing, at most `room` directories above it. The disk is
told also on failure, since directories made on the way stay. -/
def makeDirectories (d : Disk) (path : String) : Nat → Option FileError × Disk
  | 0 => (some .notFound, d)
  | room + 1 =>
    if path = "" then (none, d)
    else
      match d.ensureDirectory path with
      | .ok d => (none, d)
      | .error .notFound =>
        match PathText.parent? path with
        | none => (some .notFound, d)
        | some parent =>
          match d.makeDirectories parent room with
          | (some e, d) => (some e, d)
          | (none, d) =>
            match d.ensureDirectory path with
            | .ok d => (none, d)
            | .error e => (some e, d)
      | .error e => (some e, d)

/-- Makes a directory with all directories above it. -/
def makeAll (d : Disk) (path : String) : Option FileError × Disk :=
  d.makeDirectories path (path.length + 1)

/-- Writes the contents of a file. -/
def setBytes (d : Disk) (id : Nat) (bs : Bytes) : Disk :=
  { d with contents := d.contents.set id bs }

/-- Opens what is at a path for writing; a missing file is made. -/
def openOrMake (d : Disk) (path : String) : Except FileError (Item × Disk) := do
  let p ← d.locate path
  match d.at? p with
  | some .directory => throw .isDirectory
  | some item => if endsWithSlash path then throw .isDirectory else return (item, d)
  | none =>
    if endsWithSlash path then throw .isDirectory
    let item := Item.file d.contents.length
    return (item, ⟨d.items ++ [(p, item)], d.contents ++ [[]]⟩)

/-- Empties what was opened. -/
def truncate (d : Disk) : Item → Disk
  | .file id => d.setBytes id []
  | _ => d

/-- Replaces the contents of a file by the given bytes. -/
def writeFile (d : Disk) (path : String) (bs : Bytes) : Except FileError Disk := do
  let (item, d) ← d.openOrMake path
  match item with
  | .file id => return d.setBytes id bs
  | .full => if bs.isEmpty then return d else throw .storageFull
  | _ => return d

/-- The contents of a file. -/
def readFile (d : Disk) (path : String) : Except FileError Bytes := do
  let p ← d.locate path
  match d.at? p with
  | none => throw .notFound
  | some .directory => throw .isDirectory
  | some item =>
    if endsWithSlash path then throw .notDirectory
    match item with
    | .file id => return d.bytes id
    | _ => return []

/-- The text in a file. -/
def readText (d : Disk) (path : String) : Except FileError String := do
  match Text.decode? (← d.readFile path) with
  | some s => return s
  | none => throw .badText

/-- Removes a file. -/
def removeFile (d : Disk) (path : String) : Except FileError Disk := do
  let p ← d.locate path
  match d.at? p with
  | none => throw .notFound
  | some .directory => throw .isDirectory
  | some _ => return { d with items := d.items.filter fun e => e.1 ≠ p }

/-- The place that something inside `source` has after `source` has moved. -/
def moved (source target p : Place) : Place :=
  if source <+: p then target ++ p.drop source.length else p

/-- Moves a file or a directory to a place where there is nothing. -/
def rename (d : Disk) (source target : String) : Except FileError Disk := do
  let s ← d.locate source
  let t ← d.locate target
  match d.at? s with
  | none => throw .notFound
  | some _ => return { d with items := d.items.map fun e => (moved s t e.1, e.2) }

end Disk

end LogTopology
