import LogTopology.Proofs.Disk.Paths
import LogTopology.Proofs.Text.Utf8
/-!
# Files that are written whole

At a path that names a file, or nothing yet (`FileOrNothing`), writing goes through as soon as the
path can be opened. What was written is then all that is read from there, and no other file has
changed (`writeFile_cases`). Where it cannot be opened the write fails with that fault and no other.

`Replaces` collects what such a write has done: the bytes at the path, the texts at all others, and
that the disk is sound again, so that writes can follow one another. A text that was written is read
back as this text (`Replaces.readText`), as its bytes decode to it.

Devices are left out, since what is written to them is not there to be read.
-/

namespace LogTopology.Disk

open Text (Bytes)

/-- There is a file at a path, or nothing. -/
def FileOrNothing (d : Disk) (path : String) : Prop :=
  ∀ item, d.item? path = some item → ∃ id, item = .file id

/-- What it means for the bytes in the file at a path to have been replaced. -/
structure Replaces (before after : Disk) (path : String) (bs : Bytes) : Prop where
  sound : after.Sound
  file : ∃ id, after.item? path = some (.file id)
  read : after.readFile path = .ok bs
  others : ∀ q, after.item? q ≠ after.item? path → after.textAt q = before.textAt q

variable {d d' : Disk} {path : String} {bs : Bytes} {item : Item} {id : Nat}

/-- Reading a file gives its bytes. -/
theorem readFile_of_file (noSlash : endsWithSlash path = false)
    (here : d.item? path = some (.file id)) : d.readFile path = .ok (d.bytes id) := by
  obtain ⟨p, located, at?⟩ := exists_place_of_item? here
  rw [readFile_eq noSlash, located]
  change d.contentsOf (d.at? p) = _
  rw [at?]
  rfl

/-- A file that was opened takes all that is written. -/
theorem Opens.replaces (opens : Opens d d' path (.file id)) (noSlash : endsWithSlash path = false) :
    Replaces d (d'.setBytes id bs) path bs where
  sound := opens.sound.setBytes id bs
  file := ⟨id, (item?_setBytes path).trans opens.here⟩
  read := by
    rw [readFile_of_file noSlash ((item?_setBytes path).trans opens.here),
      bytes_setBytes_self (stored_of_item? opens.sound opens.here)]
  others := by
    intro q other
    rw [item?_setBytes, item?_setBytes, opens.here] at other
    rw [textAt_setBytes_of_ne other, opens.texts]

/-- Writing a whole file fails only when the path cannot be opened, and then with this fault. -/
theorem writeFile_cases (sound : d.Sound) (plain : d.FileOrNothing path) (bs : Bytes) :
    (∃ fault, d.openFault? path = some fault ∧ d.writeFile path bs = .error fault) ∨
      (d.openFault? path = none ∧ ∃ d', d.writeFile path bs = .ok d' ∧ Replaces d d' path bs) := by
  cases opening : d.openOrMake path with
  | error fault =>
    refine .inl ⟨fault, ?_, ?_⟩
    · rw [openFault?, opening]
    · rw [writeFile, opening]
      rfl
  | ok opened =>
    obtain ⟨item, d₁⟩ := opened
    have opens := opens_of_openOrMake sound opening
    have isFile : ∃ id, item = .file id := by
      rcases opens.items path item opens.here with old | new
      · exact plain item old
      · exact new
    obtain ⟨id, rfl⟩ := isFile
    refine .inr ⟨?_, d₁.setBytes id bs, ?_, opens.replaces (openOrMake_eq_ok opening).1⟩
    · rw [openFault?, opening]
    · rw [writeFile, opening]
      rfl

/-- After a file was written there is a file at its path. -/
theorem Replaces.fileOrNothing (replaces : Replaces d d' path bs) : d'.FileOrNothing path := by
  intro item here
  obtain ⟨id, file⟩ := replaces.file
  exact ⟨id, Option.some.inj (here.symm.trans file)⟩

/-- A text that was written is read back. -/
theorem Replaces.readText {text : String}
    (replaces : Replaces d d' path (Text.encode text.toList)) : d'.readText path = .ok text := by
  simp only [Disk.readText, replaces.read, bind, Except.bind, Text.decode?_encode]
  rfl

end LogTopology.Disk
