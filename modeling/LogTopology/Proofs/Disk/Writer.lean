import LogTopology.Disk.Writer
import LogTopology.Proofs.Disk.Items
/-!
# What buffered writers put into files

A writer that stands at the end of a file (`AtEnd`) adds to the file and its buffer, taken together,
exactly what it is given, in this order, and never fails: `flush_eq` and `write_eq`.

What is in the file and what is still in the buffer depends on how full the buffer is, so each law
speaks of both at once, and says besides that the file keeps what it had. A line that is larger than
the buffer passes it, after the buffer has been written out (`room_eq`).

Writers on devices, which may fail, and writers that do not stand at the end of their file are left
out; a log file that is opened to be appended to always stands there.
-/

namespace LogTopology

open Text (Bytes)

variable {d : Disk} {id other : Nat} {bs : Bytes}

/-! ## Contents of files -/

namespace Disk

/-- A file has the bytes that were put into it. -/
theorem bytes_setBytes_self (h : id < d.contents.length) (bs : Bytes) :
    (d.setBytes id bs).bytes id = bs := by
  unfold Disk.bytes Disk.setBytes
  rw [List.getElem?_set_self h]
  rfl

/-- Other files keep their bytes. -/
theorem bytes_setBytes_of_ne (h : other ≠ id) (bs : Bytes) :
    (d.setBytes id bs).bytes other = d.bytes other := by
  unfold Disk.bytes Disk.setBytes
  rw [List.getElem?_set_ne h.symm]

/-- Of two writes of a whole file the second counts. -/
theorem setBytes_setBytes (first second : Bytes) :
    (d.setBytes id first).setBytes id second = d.setBytes id second := by
  unfold Disk.setBytes
  rw [List.set_set]

/-- Putting a file's own bytes into it changes nothing. -/
theorem setBytes_bytes (h : id < d.contents.length) : d.setBytes id (d.bytes id) = d := by
  unfold Disk.bytes Disk.setBytes
  rw [List.getElem?_eq_getElem h, Option.getD_some, List.set_getElem_self]

/-- Writing makes no file and removes none. -/
theorem length_contents_setBytes (bs : Bytes) :
    (d.setBytes id bs).contents.length = d.contents.length :=
  List.length_set

end Disk

/-! ## Writing at the end of a file -/

namespace Writer

/-- The writer has this file open, and what it writes next goes to the end of it. -/
structure AtEnd (w : Writer) (d : Disk) (id : Nat) : Prop where
  item : w.item = .file id
  stored : id < d.contents.length
  position : ∀ n, w.position = some n → n = (d.bytes id).length

variable {w : Writer}

/-- Bytes that are put at the end of others follow them. -/
theorem overwrite_at_end (old new : Bytes) : overwrite old new old.length = old ++ new := by
  unfold overwrite
  rw [List.take_length, Nat.sub_self, List.drop_eq_nil_of_le (Nat.le_add_right _ _)]
  simp

/-- Bytes written past the buffer are added to the file. -/
theorem put_eq (h : w.AtEnd d id) (bs : Bytes) :
    ∃ w', w.put d bs = (none, w', d.setBytes id (d.bytes id ++ bs)) ∧
      w'.buffer = w.buffer ∧ w'.AtEnd (d.setBytes id (d.bytes id ++ bs)) id := by
  have stored : id < (d.setBytes id (d.bytes id ++ bs)).contents.length := by
    rw [Disk.length_contents_setBytes]
    exact h.stored
  unfold put
  rw [h.item]
  cases hp : w.position with
  | none =>
    refine ⟨w, rfl, rfl, h.item, stored, ?_⟩
    intro n hn
    rw [hp] at hn
    cases hn
  | some p =>
    have atEnd := overwrite_at_end (d.bytes id) bs
    rw [← h.position p hp] at atEnd
    dsimp only
    rw [atEnd]
    refine ⟨_, rfl, rfl, rfl, stored, ?_⟩
    intro n hn
    cases hn
    rw [Disk.bytes_setBytes_self h.stored, List.length_append, h.position p hp]

/-- Writing out the buffer adds it to the file. -/
theorem flush_eq (h : w.AtEnd d id) :
    ∃ w', w.flush d = (none, w', d.setBytes id (d.bytes id ++ w.buffer)) ∧
      w'.buffer = [] ∧ w'.AtEnd (d.setBytes id (d.bytes id ++ w.buffer)) id := by
  obtain ⟨w', hput, -, atEnd⟩ := put_eq h w.buffer
  unfold flush
  rw [hput]
  exact ⟨{ w' with buffer := [] }, rfl, rfl, atEnd.item, atEnd.stored, atEnd.position⟩

/-- Making room for bytes loses none; none stay in the buffer when the bytes are to pass it. -/
theorem room_eq (h : w.AtEnd d id) (size : Nat) :
    ∃ w' text,
      (if w.buffer.length + size ≤ capacity then (none, w, d) else w.flush d) =
        (none, w', d.setBytes id text) ∧
      text ++ w'.buffer = d.bytes id ++ w.buffer ∧ d.bytes id <+: text ∧
      (capacity ≤ size → w'.buffer = []) ∧ w'.AtEnd (d.setBytes id text) id := by
  by_cases fits : w.buffer.length + size ≤ capacity
  · rw [if_pos fits]
    refine ⟨w, d.bytes id, ?_, rfl, List.prefix_refl _, ?_, ?_⟩
    · rw [Disk.setBytes_bytes h.stored]
    · intro large
      apply List.eq_nil_of_length_eq_zero
      omega
    · rw [Disk.setBytes_bytes h.stored]
      exact h
  · rw [if_neg fits]
    obtain ⟨w', hflush, hbuffer, atEnd⟩ := flush_eq h
    refine ⟨w', _, hflush, ?_, List.prefix_append _ _, fun _ => hbuffer, atEnd⟩
    rw [hbuffer, List.append_nil]

/-- Bytes written through the buffer are added to what the file and the buffer hold, and the file
loses nothing. -/
theorem write_eq (h : w.AtEnd d id) (bs : Bytes) :
    ∃ w' text, w.write d bs = (none, w', d.setBytes id text) ∧
      text ++ w'.buffer = d.bytes id ++ w.buffer ++ bs ∧ d.bytes id <+: text ∧
      w'.AtEnd (d.setBytes id text) id := by
  obtain ⟨w₁, text, hroom, kept, more, empty, atEnd⟩ := room_eq h bs.length
  unfold write
  rw [hroom]
  dsimp only
  rw [if_neg (by rw [Option.isSome_none]; exact Bool.false_ne_true)]
  by_cases large : capacity ≤ bs.length
  · rw [if_pos large]
    obtain ⟨w₂, hput, hbuffer, atEnd₂⟩ := put_eq atEnd bs
    rw [Disk.setBytes_setBytes, Disk.bytes_setBytes_self h.stored] at hput atEnd₂
    refine ⟨w₂, _, hput, ?_, more.trans (List.prefix_append _ _), atEnd₂⟩
    rw [hbuffer, empty large, List.append_nil, ← kept, empty large, List.append_nil]
  · rw [if_neg large]
    refine ⟨_, text, rfl, ?_, more, atEnd.item, atEnd.stored, atEnd.position⟩
    rw [← kept, List.append_assoc]

end Writer

end LogTopology
