import LogTopology.Disk.Writer
import LogTopology.LogFile.Name
import LogTopology.SetupError
/-!
# Log files of bounded size

A log file that is put aside before a line would make it too large. The copies are numbered, the
newest being 1; the one that gets too old is removed. A line goes into one file as a whole, and a
file that is still empty takes a line of any length.
-/

namespace LogTopology.LogFile

open Text (Bytes)

/-- Opens a log file, in the words of a set-up when it fails. -/
def openLog (d : Disk) (path : String) (truncate : Bool) : Setup (Writer × Disk) :=
  (if truncate then Writer.fresh d path else Writer.append d path).mapError fun e =>
    .within (.openingLog path) (.reported e.message)

/-- A log file with its copies. -/
structure Rotating where
  base : String
  maxSize : Nat
  maxFiles : Nat
  writer : Writer
  /-- The bytes in the live file and in the buffer. -/
  size : Nat
  deriving DecidableEq, Repr

namespace Rotating

/-- Opens the live file, which may hold something already. -/
def make (d : Disk) (base : String) (maxSize maxFiles : Nat) : Setup (Rotating × Disk) := do
  if maxSize = 0 then throw (.zeroMaxSize base)
  let (writer, d) ← openLog d base false
  let size := match writer.item with
    | .file id => (d.bytes id).length
    | _ => 0
  return (⟨base, maxSize, maxFiles, writer, size⟩, d)

/-- Moves a copy to the next number, whose file goes. -/
def shift (base : String) (index : Nat) (d : Disk) : Option FileError × Disk :=
  let source := copyName base index
  let target := copyName base (index + 1)
  if d.pathExists source then
    match if d.pathExists target then d.removeFile target else .ok d with
    | .error e => (some e, d)
    | .ok d =>
      match d.rename source target with
      | .error e => (some e, d)
      | .ok d => (none, d)
  else (none, d)

/-- Moves the copies with the numbers below the given one, the highest first. -/
def shiftBelow (base : String) : Nat → Disk → Option FileError × Disk
  | 0, d => (none, d)
  | index + 1, d =>
    match shift base index d with
    | (some e, d) => (some e, d)
    | (none, d) => shiftBelow base index d

/-- Puts the live file aside and starts a new one. -/
def rotate (r : Rotating) (d : Disk) : Option FileError × Rotating × Disk :=
  match r.writer.flush d with
  | (some e, writer, d) => (some e, { r with writer := writer }, d)
  | (none, writer, d) =>
    let r := { r with writer := writer }
    match shiftBelow r.base r.maxFiles d with
    | (some e, d) => (some e, r, d)
    | (none, d) =>
      match Writer.fresh d r.base with
      | .error e => (some e, r, d)
      | .ok (writer, d) => (none, { r with writer := writer, size := 0 }, d)

/-- Writes a line into the live file. -/
def append (r : Rotating) (d : Disk) (line : Bytes) : Option FileError × Rotating × Disk :=
  match r.writer.write d line with
  | (some e, writer, d) => (some e, { r with writer := writer }, d)
  | (none, writer, d) => (none, { r with writer := writer, size := r.size + line.length }, d)

/-- Writes a line, into a new file when it does not fit into the live one. -/
def log (r : Rotating) (d : Disk) (line : Bytes) : Option FileError × Rotating × Disk :=
  if 0 < r.size && r.maxSize < r.size + line.length then
    match r.rotate d with
    | (some e, r, d) => (some e, r, d)
    | (none, r, d) => r.append d line
  else r.append d line

/-- Writes out the buffer. -/
def flush (r : Rotating) (d : Disk) : Option FileError × Rotating × Disk :=
  let (fault, writer, d) := r.writer.flush d
  (fault, { r with writer := writer }, d)

end Rotating

end LogTopology.LogFile
