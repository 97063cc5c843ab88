import LogTopology.Disk.Basic
/-!
# Buffered writers

An open file that is written to through a buffer. A file is opened either to append, and then every
write goes to its end wherever that is by then, or emptied, and then writes follow one another from
its start. What does not fit into the buffer any more makes room first; a write that fails leaves
the buffer as it was.
-/

namespace LogTopology

open Text (Bytes)

/-- A file open for writing. -/
structure Writer where
  item : Item
  /-- Where the next write goes; nothing means the end of the file. -/
  position : Option Nat
  buffer : Bytes
  deriving DecidableEq, Repr

/-- How many bytes a buffer holds. -/
def Writer.capacity : Nat := 8192

namespace Writer

/-- Opens a file to append to it. -/
def append (d : Disk) (path : String) : Except FileError (Writer × Disk) := do
  let (item, d) ← d.openOrMake path
  return (⟨item, none, []⟩, d)

/-- Opens a file and empties it. -/
def fresh (d : Disk) (path : String) : Except FileError (Writer × Disk) := do
  let (item, d) ← d.openOrMake path
  return (⟨item, some 0, []⟩, d.truncate item)

/-- Puts bytes over others from a position on; a gap before it fills with zeros. -/
def overwrite (old new : Bytes) (position : Nat) : Bytes :=
  old.take position ++ List.replicate (position - old.length) 0 ++ new ++
    old.drop (position + new.length)

/-- Writes bytes past the buffer. -/
def put (w : Writer) (d : Disk) (bs : Bytes) : Option FileError × Writer × Disk :=
  match w.item with
  | .file id =>
    match w.position with
    | none => (none, w, d.setBytes id (d.bytes id ++ bs))
    | some p =>
      (none, { w with position := some (p + bs.length) }, d.setBytes id (overwrite (d.bytes id) bs p))
  | .full => (if bs.isEmpty then none else some .storageFull, w, d)
  | _ => (none, w, d)

/-- Writes out the buffer. -/
def flush (w : Writer) (d : Disk) : Option FileError × Writer × Disk :=
  match w.put d w.buffer with
  | (none, w, d) => (none, { w with buffer := [] }, d)
  | (some e, w, d) => (some e, w, d)

/-- Writes bytes, through the buffer when they fit into it. -/
def write (w : Writer) (d : Disk) (bs : Bytes) : Option FileError × Writer × Disk :=
  let (fault, w, d) := if w.buffer.length + bs.length ≤ capacity then (none, w, d) else w.flush d
  if fault.isSome then (fault, w, d)
  else if capacity ≤ bs.length then w.put d bs
  else (none, { w with buffer := w.buffer ++ bs }, d)

end Writer

end LogTopology
