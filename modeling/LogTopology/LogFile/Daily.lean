import LogTopology.Calendar.Moment
import LogTopology.LogFile.Rotating
/-!
# Log files of a day

A log file that changes at a given time of day. Which file a line goes into is decided by the time
of its record: the first record at or after the next change opens the file of its own date, and the
change after that is the next one after this record.
-/

namespace LogTopology.LogFile

open Calendar (Date WallTime)
open Text (Bytes)

/-- A log file that changes once a day. -/
structure Daily where
  base : String
  /-- The second of the day at which the file changes. -/
  second : Nat
  writer : Writer
  path : String
  changeAt : WallTime
  deriving DecidableEq, Repr

namespace Daily

/-- Opens the file of the day that the clock shows. -/
def make (d : Disk) (base : String) (hour minute : Nat) (now : WallTime) :
    Setup (Daily × Disk) := do
  if 23 < hour || 59 < minute then throw (.badRotationTime hour minute)
  let second := hour * 3600 + minute * 60
  let path := dayName base now.date
  let (writer, d) ← openLog d path false
  return (⟨base, second, writer, path, now.nextAt second⟩, d)

/-- Changes to the file of the day that the clock shows. -/
def change (f : Daily) (d : Disk) (now : WallTime) : Option FileError × Daily × Disk :=
  match f.writer.flush d with
  | (some e, writer, d) => (some e, { f with writer := writer }, d)
  | (none, writer, d) =>
    let path := dayName f.base now.date
    match Writer.append d path with
    | .error e => (some e, { f with writer := writer }, d)
    | .ok (writer, d) =>
      (none, { f with writer := writer, path := path, changeAt := now.nextAt f.second }, d)

/-- Writes a line into the current file. -/
def append (f : Daily) (d : Disk) (line : Bytes) : Option FileError × Daily × Disk :=
  let (fault, writer, d) := f.writer.write d line
  (fault, { f with writer := writer }, d)

/-- Writes the line of a record of the given time. -/
def log (f : Daily) (d : Disk) (now : WallTime) (line : Bytes) : Option FileError × Daily × Disk :=
  if now.before f.changeAt then f.append d line
  else
    match f.change d now with
    | (some e, f, d) => (some e, f, d)
    | (none, f, d) => f.append d line

/-- Writes out the buffer. -/
def flush (f : Daily) (d : Disk) : Option FileError × Daily × Disk :=
  let (fault, writer, d) := f.writer.flush d
  (fault, { f with writer := writer }, d)

end Daily

end LogTopology.LogFile
