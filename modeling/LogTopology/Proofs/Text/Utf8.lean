import LogTopology.Text.Utf8
import Mathlib.Tactic.IntervalCases
/-!
# Encoded texts are read back

The reader of bytes finds exactly the characters that were encoded: the first byte of a character
says how many follow and where the second one has to lie, and no character has an encoding outside
of these bounds, surrogates being no characters. So a text is what its bytes decode to
(`decode?_encode`).

Bytes that encode nothing are not considered here.

The reader keeps what it has read of a character in its state (`begun`), and there is a lemma for
each kind of byte: one that is a character by itself, a first one, one in between and a last one.
`scan_encoded` follows a character through them, by the number of its bytes.
-/

namespace LogTopology.Text

/-! ## First bytes -/

/-- What is read of a character of which only the first of `count` bytes is there; `n` is what that
byte adds to the number. -/
def begun (count n : Nat) : Partial :=
  match count with
  | 2 => ⟨1, 0x80, 0xBF, n⟩
  | 3 => ⟨2, if n = 0 then 0xA0 else 0x80, if n = 0xD then 0x9F else 0xBF, n⟩
  | _ => ⟨3, if n = 0 then 0x90 else 0x80, if n = 4 then 0x8F else 0xBF, n⟩

/-- A small number is a character by itself. -/
theorem lead?_one {n : Nat} (small : n < 0x80) : lead? n = some (.inl (Char.ofNat n)) := by
  rw [lead?, if_pos small]

/-- The first byte of a character of two bytes. -/
theorem lead?_two {n : Nat} (least : 2 ≤ n) (most : n < 32) :
    lead? (n + 192) = some (.inr (begun 2 n)) := by
  interval_cases n <;> rfl

/-- The first byte of a character of three bytes. -/
theorem lead?_three {n : Nat} (most : n < 16) : lead? (n + 224) = some (.inr (begun 3 n)) := by
  interval_cases n <;> rfl

/-- The first byte of a character of four bytes. -/
theorem lead?_four {n : Nat} (most : n < 5) : lead? (n + 240) = some (.inr (begun 4 n)) := by
  interval_cases n <;> rfl

/-! ## Steps of the reader -/

/-- A small number is a byte. -/
theorem toNat_ofNat_of_lt {n : Nat} (small : n < 256) : (UInt8.ofNat n).toNat = n := by
  rw [UInt8.toNat_ofNat']
  exact Nat.mod_eq_of_lt small

section Steps

variable {bs : Bytes} {n m k : Nat} {p : Partial}

/-- A byte that is a character by itself is read at once. -/
theorem scan_whole {c : Char} (small : n < 256) (first : lead? n = some (.inl c)) :
    scan none (UInt8.ofNat n :: bs) = some c :: scan none bs := by
  rw [scan]
  simp only [toNat_ofNat_of_lt small, first]

/-- A byte that begins a character is kept until the others are there. -/
theorem scan_begun (small : n < 256) (first : lead? n = some (.inr p)) :
    scan none (UInt8.ofNat n :: bs) = scan (some p) bs := by
  rw [scan]
  simp only [toNat_ofNat_of_lt small, first]

/-- A byte between the first and the last one adds six bits to the number. -/
theorem scan_next (small : m < 64) (low : p.low ≤ m + 128) (high : m + 128 ≤ p.high)
    (more : p.missing ≠ 1) :
    scan (some p) (UInt8.ofNat (m + 128) :: bs) =
      scan (some ⟨p.missing - 1, 0x80, 0xBF, 0x40 * p.number + m⟩) bs := by
  have six : (m + 128) % 0x40 = m := by omega
  rw [scan]
  simp only [toNat_ofNat_of_lt (show m + 128 < 256 by omega), low, high, decide_true, Bool.and_self,
    if_true, if_neg more, six]

/-- The last byte adds six bits as well, and the number is the character's. -/
theorem scan_last (small : m < 64) (low : p.low ≤ m + 128) (high : m + 128 ≤ p.high)
    (last : p.missing = 1) :
    scan (some p) (UInt8.ofNat (m + 128) :: bs) =
      some (Char.ofNat (0x40 * p.number + m)) :: scan none bs := by
  have six : (m + 128) % 0x40 = m := by omega
  rw [scan]
  simp only [toNat_ofNat_of_lt (show m + 128 < 256 by omega), low, high, decide_true, Bool.and_self,
    if_true, last, six]

/-- The second byte of a character lies within the bounds that its first byte sets. -/
theorem low_begun_three (least : n = 0 → 32 ≤ m) : (begun 3 n).low ≤ m + 128 := by
  simp only [begun]
  split <;> omega

/-- Within three bytes the second one is not too high, surrogates left aside. -/
theorem high_begun_three (small : m < 64) (most : n = 0xD → m < 32) :
    m + 128 ≤ (begun 3 n).high := by
  simp only [begun]
  split <;> omega

/-- Within four bytes the second one is not too low, where the number needs all of them. -/
theorem low_begun_four (least : n = 0 → 16 ≤ m) : (begun 4 n).low ≤ m + 128 := by
  simp only [begun]
  split <;> omega

/-- Within four bytes the second one is not too high, where the number is that of a character. -/
theorem high_begun_four (small : m < 64) (most : n = 4 → m < 16) :
    m + 128 ≤ (begun 4 n).high := by
  simp only [begun]
  split <;> omega

end Steps

/-- The bytes of a character are read as the character. -/
theorem scan_encoded (c : Char) (bs : Bytes) :
    scan none (String.utf8EncodeChar c ++ bs) = some c :: scan none bs := by
  have valid : c.val.toNat < 55296 ∨ 57343 < c.val.toNat ∧ c.val.toNat < 1114112 := c.valid
  have back : Char.ofNat c.val.toNat = c := Char.ofNat_toNat c
  rw [String.utf8EncodeChar]
  generalize c.val.toNat = v at valid back ⊢
  -- By the number of bytes: the bits that they carry are put together again.
  split
  · exact scan_whole (by omega) ((lead?_one (by omega)).trans (by rw [back]))
  split
  · have number : 0x40 * (v / 64 % 32) + v % 64 = v := by omega
    refine (scan_begun (by omega) (lead?_two (by omega) (by omega))).trans ?_
    refine (scan_last (by omega) (Nat.le_add_left 128 _) ?_ rfl).trans ?_
    · change v % 64 + 128 ≤ 191
      omega
    · change some (Char.ofNat (0x40 * (v / 64 % 32) + v % 64)) :: _ = _
      rw [number, back]
      rfl
  split
  · have number : 0x40 * (0x40 * (v / 4096 % 16) + v / 64 % 64) + v % 64 = v := by omega
    refine (scan_begun (by omega) (lead?_three (by omega))).trans ?_
    refine (scan_next (by omega) (low_begun_three (by omega))
      (high_begun_three (by omega) (by omega)) (show 2 ≠ 1 by decide)).trans ?_
    refine (scan_last (by omega) (Nat.le_add_left 128 _) ?_ rfl).trans ?_
    · change v % 64 + 128 ≤ 191
      omega
    · change some (Char.ofNat (0x40 * (0x40 * (v / 4096 % 16) + v / 64 % 64) + v % 64)) :: _ = _
      rw [number, back]
      rfl
  · have number : 0x40 * (0x40 * (0x40 * (v / 262144 % 8) + v / 4096 % 64) + v / 64 % 64) +
        v % 64 = v := by omega
    refine (scan_begun (by omega) (lead?_four (by omega))).trans ?_
    refine (scan_next (by omega) (low_begun_four (by omega))
      (high_begun_four (by omega) (by omega)) (show 3 ≠ 1 by decide)).trans ?_
    refine (scan_next (by omega) (Nat.le_add_left 128 _) ?_ (show 2 ≠ 1 by decide)).trans ?_
    · change v / 64 % 64 + 128 ≤ 191
      omega
    refine (scan_last (by omega) (Nat.le_add_left 128 _) ?_ rfl).trans ?_
    · change v % 64 + 128 ≤ 191
      omega
    · change some (Char.ofNat (0x40 * (0x40 * (0x40 * (v / 262144 % 8) + v / 4096 % 64) +
        v / 64 % 64) + v % 64)) :: _ = _
      rw [number, back]
      rfl

/-! ## Whole texts -/

/-- Characters are read back one by one. -/
theorem scan_encode (cs : List Char) : scan none (encode cs) = cs.map some := by
  induction cs with
  | nil => rfl
  | cons c cs ih =>
    rw [encode, List.flatMap_cons, scan_encoded]
    exact congrArg (some c :: ·) ih

/-- A list in which everything is there is read as a whole. -/
theorem mapM_id_map_some {α : Type} (l : List α) : (l.map some).mapM id = some l := by
  induction l with
  | nil => rfl
  | cons a l ih =>
    rw [List.map_cons, List.mapM_cons, ih]
    rfl

/-- A text is what its bytes decode to. -/
theorem decode?_encode (s : String) : decode? (encode s.toList) = some s := by
  rw [decode?, scan_encode, mapM_id_map_some, Option.map_some, String.ofList_toList]

end LogTopology.Text
