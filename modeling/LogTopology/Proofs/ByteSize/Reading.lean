import LogTopology.ByteSize
import LogTopology.Proofs.Template.Reading
import Mathlib.Data.List.TakeWhile
/-!
# Which texts are byte counts

A size text is a decimal number with at most one letter for its unit and at most one `B` behind it;
blanks may stand around the three. Reading takes exactly these texts, and of them exactly those
whose count fits into 64 bits (`parse_takes_size_texts`). The number may have any length: one that
does not fit is refused whether it is too large by itself or only with its unit. Every refusal is
told by its cause; a kelvin sign passes for a `K` until the number has been read, and is refused
then.

`Denotes` says what a text says, by its parts and with no reader in it; `Refused` has a rule for
each error. `split?_eq_some` shows that the text is taken apart at the right places, which is where
blanks in front of the unit and behind it are dealt with, and `parse_outcome` adds the number, the
unit and the bound. A text cannot both say a count that fits and be refused, so acceptance is an
equivalence.
-/

namespace LogTopology.ByteSize

open Template (Blank trimStart_append exists_eq_blank_append)
open Text (isBlank trimStart)

variable {cs digits gap mark tail : List Char} {letter : Option Char} {s : String}

/-! ## Size texts -/

/-- The ways to write that a count is one of bytes. -/
def byteMarks : List (List Char) :=
  [[], ['B'], ['b']]

/-- The parts of a size text. Which letters are units is not said here. -/
structure Shaped (cs digits : List Char) (letter : Option Char) : Prop where
  some : digits ≠ []
  decimal : ∀ c ∈ digits, c.isDigit = true
  parts : ∃ lead gap mark tail, Blank lead ∧ Blank gap ∧ mark ∈ byteMarks ∧ Blank tail ∧
    cs = lead ++ (digits ++ (gap ++ (letter.toList ++ (mark ++ tail))))

/-- The power of 1024 that a letter of either case stands for, and that no letter stands for. -/
inductive Power : Option Char → Nat → Prop where
  | none : Power none 0
  | kilo {c : Char} (h : c = 'K' ∨ c = 'k') : Power (some c) 1
  | mega {c : Char} (h : c = 'M' ∨ c = 'm') : Power (some c) 2
  | giga {c : Char} (h : c = 'G' ∨ c = 'g') : Power (some c) 3
  | tera {c : Char} (h : c = 'T' ∨ c = 't') : Power (some c) 4

/-- A text says a number of bytes. -/
def Denotes (s : String) (n : Nat) : Prop :=
  ∃ digits letter e, Shaped s.toList digits letter ∧ Power letter e ∧
    n = Nat.ofDigitChars 10 digits 0 * Nat.pow 1024 e

/-- Why a text is refused. -/
inductive Refused (s : String) : Fault → Prop where
  /-- The text has another shape, or a letter that is not even taken for a unit. -/
  | malformed (h : ∀ digits letter, Shaped s.toList digits letter →
      ¬∀ c ∈ letter, isUnitLetter c = true) : Refused s (.malformed s)
  /-- The number is too large by itself, whatever the letter behind it. -/
  | numberTooLarge {digits : List Char} {letter : Option Char}
      (shaped : Shaped s.toList digits letter) (letters : ∀ c ∈ letter, isUnitLetter c = true)
      (large : UInt64.size ≤ Nat.ofDigitChars 10 digits 0) : Refused s (.numberTooLarge s)
  /-- The number is fine, but the letter is a kelvin sign. -/
  | unknownUnit {digits : List Char} (shaped : Shaped s.toList digits (some '\u212a'))
      (fits : Nat.ofDigitChars 10 digits 0 < UInt64.size) : Refused s (.unknownUnit '\u212a')
  /-- The number is too large with its unit. -/
  | overflow {digits : List Char} {letter : Option Char} {e : Nat}
      (shaped : Shaped s.toList digits letter) (power : Power letter e)
      (fits : Nat.ofDigitChars 10 digits 0 < UInt64.size)
      (large : UInt64.size ≤ Nat.ofDigitChars 10 digits 0 * Nat.pow 1024 e) :
      Refused s (.overflow s)

/-! ## Characters -/

theorem isBlank_of_isDigit {c : Char} (h : c.isDigit = true) : isBlank c = false := by
  simp only [Char.isDigit, Bool.and_eq_true, decide_eq_true_eq, UInt32.le_iff_toNat_le] at h
  have bounds : 48 ≤ c.toNat ∧ c.toNat ≤ 57 := h
  simp only [isBlank, Bool.or_eq_false_iff, Bool.and_eq_false_iff, decide_eq_false_iff_not,
    beq_eq_false_iff_ne]
  omega

/-- Blanks are no digits. -/
theorem isDigit_of_isBlank {c : Char} (h : isBlank c = true) : c.isDigit = false := by
  apply eq_false_of_ne_true
  intro digit
  cases (isBlank_of_isDigit digit).symm.trans h

/-- What is taken for a unit is neither a blank nor a digit. -/
theorem apart_of_isUnitLetter {c : Char} (h : isUnitLetter c = true) :
    isBlank c = false ∧ c.isDigit = false := by
  simp only [isUnitLetter, decide_eq_true_eq, List.mem_cons, List.not_mem_nil, or_false] at h
  rcases h with rfl | rfl | rfl | rfl | rfl | rfl | rfl | rfl | rfl <;> exact ⟨rfl, rfl⟩

/-- Every letter that stands for a power of 1024 is taken for a unit. -/
theorem isUnitLetter_of_power {e : Nat} (power : Power letter e) :
    ∀ c ∈ letter, isUnitLetter c = true := by
  rintro c ⟨⟩
  cases power with
  | kilo h | mega h | giga h | tera h => rcases h with rfl | rfl <;> rfl

/-- The unit of no letter is a byte, and that of a letter is the one that it stands for. -/
theorem elim_exponent?_eq_some {e : Nat} :
    letter.elim (some 0) exponent? = some e ↔ Power letter e := by
  constructor
  · intro h
    cases letter with
    | none =>
      cases h
      exact .none
    | some c =>
      simp only [Option.elim_some, exponent?, Bool.or_eq_true, decide_eq_true_eq] at h
      split at h
      · cases h
        exact .kilo (by assumption)
      split at h
      · cases h
        exact .mega (by assumption)
      split at h
      · cases h
        exact .giga (by assumption)
      split at h
      · cases h
        exact .tera (by assumption)
      · cases h
  · intro h
    cases h with
    | none => rfl
    | kilo h | mega h | giga h | tera h => rcases h with rfl | rfl <;> rfl

/-- The only letter that is taken for a unit without being one is the kelvin sign. -/
theorem power_or_kelvin {c : Char} (h : isUnitLetter c = true) :
    (∃ e, Power (some c) e) ∨ c = '\u212a' := by
  simp only [isUnitLetter, decide_eq_true_eq, List.mem_cons, List.not_mem_nil, or_false] at h
  rcases h with h | h | h | h | h | h | h | h | h
  · exact .inl ⟨4, .tera (.inl h)⟩
  · exact .inl ⟨3, .giga (.inl h)⟩
  · exact .inl ⟨2, .mega (.inl h)⟩
  · exact .inl ⟨1, .kilo (.inl h)⟩
  · exact .inl ⟨4, .tera (.inr h)⟩
  · exact .inl ⟨3, .giga (.inr h)⟩
  · exact .inl ⟨2, .mega (.inr h)⟩
  · exact .inl ⟨1, .kilo (.inr h)⟩
  · exact .inr h

/-- Of the letters that are taken for units, only the kelvin sign has no power. -/
theorem eq_kelvin_of_elim_exponent? (letters : ∀ c ∈ letter, isUnitLetter c = true)
    (h : letter.elim (some 0) exponent? = none) : letter = some '\u212a' := by
  cases letter with
  | none => cases h
  | some c =>
    rcases power_or_kelvin (letters c rfl) with ⟨e, power⟩ | kelvin
    · cases h.symm.trans (elim_exponent?_eq_some.mpr power)
    · rw [kelvin]

/-! ## The parts of a text -/

/-- Nothing is left of blanks. -/
theorem trimStart_of_blank (blank : Blank tail) : trimStart tail = [] := by
  rw [← List.append_nil tail, trimStart_append blank]
  rfl

/-- A text of which nothing is left consists of blanks. -/
theorem blank_of_trimStart (h : trimStart cs = []) : Blank cs := by
  obtain ⟨lead, blank, parts⟩ := exists_eq_blank_append cs
  rw [h, List.append_nil] at parts
  rw [parts]
  exact blank

/-- Behind the unit there is nothing but a mark and blanks. -/
theorem trimStart_dropByteMark (marked : mark ∈ byteMarks) (blank : Blank tail) :
    trimStart (dropByteMark (mark ++ tail)) = [] := by
  simp only [byteMarks, List.mem_cons, List.not_mem_nil, or_false] at marked
  rcases marked with rfl | rfl | rfl
  · cases tail with
    | nil => rfl
    | cons c tail =>
      have apart : ¬(c = 'B' || c = 'b') = true := by
        have here := blank c List.mem_cons_self
        rw [Bool.or_eq_true, decide_eq_true_eq, decide_eq_true_eq]
        rintro (rfl | rfl) <;> cases here
      rw [List.nil_append, dropByteMark, if_neg apart]
      exact trimStart_of_blank blank
  · exact trimStart_of_blank blank
  · exact trimStart_of_blank blank

/-- What is dropped as a byte mark is one of the byte marks, maybe the empty one. -/
theorem exists_mark (cs : List Char) : ∃ mark ∈ byteMarks, cs = mark ++ dropByteMark cs := by
  cases cs with
  | nil => exact ⟨[], List.mem_cons_self, rfl⟩
  | cons c cs =>
    rw [dropByteMark]
    split
    · rename_i isMark
      rw [Bool.or_eq_true, decide_eq_true_eq, decide_eq_true_eq] at isMark
      refine ⟨[c], ?_, rfl⟩
      rcases isMark with rfl | rfl
      · exact List.mem_cons_of_mem _ List.mem_cons_self
      · exact List.mem_cons_of_mem _ (List.mem_cons_of_mem _ List.mem_cons_self)
    · exact ⟨[], List.mem_cons_self, rfl⟩

/-- A text is taken apart into a letter for the unit, if it starts with one, and the rest. -/
theorem splitUnit_parts (cs : List Char) :
    cs = (splitUnit cs).1.toList ++ (splitUnit cs).2 ∧
      ∀ c ∈ (splitUnit cs).1, isUnitLetter c = true := by
  cases cs with
  | nil =>
    refine ⟨rfl, ?_⟩
    rintro _ ⟨⟩
  | cons c cs =>
    rw [splitUnit]
    split
    · rename_i taken
      refine ⟨rfl, ?_⟩
      rintro _ ⟨⟩
      exact taken
    · refine ⟨rfl, ?_⟩
      rintro _ ⟨⟩

/-- Behind the digits and their blanks, the unit is found where there is one. -/
theorem splitUnit_trimStart (letters : ∀ c ∈ letter, isUnitLetter c = true)
    (marked : mark ∈ byteMarks) (blank : Blank tail) :
    ∃ after, splitUnit (trimStart (letter.toList ++ (mark ++ tail))) = (letter, after) ∧
      trimStart (dropByteMark after) = [] := by
  have ends := trimStart_dropByteMark marked blank
  cases letter with
  | some c =>
    have taken := letters c rfl
    refine ⟨mark ++ tail, ?_, ends⟩
    change splitUnit (trimStart (c :: (mark ++ tail))) = _
    rw [trimStart, List.dropWhile_cons_of_neg (ne_true_of_eq_false (apart_of_isUnitLetter taken).1),
      splitUnit, if_pos taken]
  | none =>
    simp only [byteMarks, List.mem_cons, List.not_mem_nil, or_false] at marked
    rcases marked with rfl | rfl | rfl
    · refine ⟨[], ?_, rfl⟩
      change splitUnit (trimStart tail) = _
      rw [trimStart_of_blank blank]
      rfl
    · exact ⟨'B' :: tail, rfl, ends⟩
    · exact ⟨'b' :: tail, rfl, ends⟩

/-- Nothing behind the digits is a digit. -/
theorem isDigit_behind (letters : ∀ c ∈ letter, isUnitLetter c = true) (blankGap : Blank gap)
    (marked : mark ∈ byteMarks) (blank : Blank tail) :
    ∀ c ∈ gap ++ (letter.toList ++ (mark ++ tail)), ¬c.isDigit = true := by
  intro c mem
  apply ne_true_of_eq_false
  simp only [List.mem_append, Option.mem_toList] at mem
  rcases mem with inGap | inLetter | inMark | inTail
  · exact isDigit_of_isBlank (blankGap c inGap)
  · exact (apart_of_isUnitLetter (letters c inLetter)).2
  · simp only [byteMarks, List.mem_cons, List.not_mem_nil, or_false] at marked
    rcases marked with rfl | rfl | rfl
    · cases inMark
    · rw [List.mem_singleton.mp inMark]
      rfl
    · rw [List.mem_singleton.mp inMark]
      rfl
  · exact isDigit_of_isBlank (blank c inTail)

/-! ## Taking a text apart -/

/-- A text is taken apart exactly when it has the shape of a size and its letter, if there is one,
is taken for a unit. -/
theorem split?_eq_some :
    split? cs = some (digits, letter) ↔
      Shaped cs digits letter ∧ ∀ c ∈ letter, isUnitLetter c = true := by
  constructor
  · intro h
    unfold split? at h
    dsimp only at h
    split at h
    · rename_i found
      cases h
      rw [Bool.and_eq_true, decide_eq_true_eq, List.isEmpty_iff] at found
      obtain ⟨lead, blankLead, start⟩ := exists_eq_blank_append cs
      obtain ⟨gap, blankGap, behind⟩ :=
        exists_eq_blank_append ((trimStart cs).dropWhile Char.isDigit)
      obtain ⟨unit, letters⟩ :=
        splitUnit_parts (trimStart ((trimStart cs).dropWhile Char.isDigit))
      obtain ⟨mark, marked, after⟩ :=
        exists_mark (splitUnit (trimStart ((trimStart cs).dropWhile Char.isDigit))).2
      refine ⟨⟨found.1, List.all_eq_true.mp List.all_takeWhile, lead, gap, mark, _, blankLead,
        blankGap, marked, blank_of_trimStart found.2, ?_⟩, letters⟩
      rw [← after, ← unit, ← behind, List.takeWhile_append_dropWhile, ← start]
    · cases h
  · rintro ⟨⟨some, decimal, lead, gap, mark, tail, blankLead, blankGap, marked, blank, rfl⟩, letters⟩
    have behind := isDigit_behind letters blankGap marked blank
    obtain ⟨after, unit, ends⟩ := splitUnit_trimStart letters marked blank
    have start : trimStart (lead ++ (digits ++ (gap ++ (letter.toList ++ (mark ++ tail))))) =
        digits ++ (gap ++ (letter.toList ++ (mark ++ tail))) := by
      rw [trimStart_append blankLead]
      obtain ⟨c, rest, rfl⟩ := List.exists_cons_of_ne_nil some
      apply List.dropWhile_cons_of_neg
      exact ne_true_of_eq_false (isBlank_of_isDigit (decimal c List.mem_cons_self))
    unfold split?
    dsimp only
    rw [start, List.takeWhile_append_of_pos decimal, List.dropWhile_append_of_pos decimal,
      List.takeWhile_eq_nil_iff.mpr fun _ => behind _ (List.get_mem _ _),
      List.dropWhile_eq_self_iff.mpr fun _ => behind _ (List.getElem_mem _),
      trimStart_append blankGap, unit, List.append_nil, ends]
    exact if_pos (by simpa using some)

/-! ## Reading -/

/-- Reading a text gives the count that it says, or tells why the text is refused. -/
theorem parse_outcome (s : String) :
    (∃ b, parse s = .ok b ∧ Denotes s b.bytes) ∨
      ∃ fault, parse s = .error fault ∧ Refused s fault := by
  unfold parse
  split
  · rename_i other
    refine .inr ⟨_, rfl, .malformed fun digits letter shaped letters => ?_⟩
    cases other.symm.trans (split?_eq_some.mpr ⟨shaped, letters⟩)
  · rename_i digits letter found
    obtain ⟨shaped, letters⟩ := split?_eq_some.mp found
    dsimp only
    by_cases large : UInt64.size ≤ Decimal.valueOf digits
    · rw [if_pos large]
      exact .inr ⟨_, rfl, .numberTooLarge shaped letters large⟩
    rw [if_neg large]
    have fits := Nat.lt_of_not_le large
    cases known : letter.elim (some 0) exponent? with
    | none =>
      obtain rfl := eq_kelvin_of_elim_exponent? letters known
      exact .inr ⟨_, rfl, .unknownUnit shaped fits⟩
    | some e =>
      have power := elim_exponent?_eq_some.mp known
      dsimp only
      by_cases whole : Decimal.valueOf digits * Nat.pow 1024 e < UInt64.size
      · rw [dif_pos whole]
        exact .inl ⟨_, rfl, digits, letter, e, shaped, power, rfl⟩
      · rw [dif_neg whole]
        exact .inr ⟨_, rfl, .overflow shaped power fits (Nat.le_of_not_lt whole)⟩

/-- A text that says a count that fits is read as this count. -/
theorem parse_of_denotes {b : ByteSize} (denotes : Denotes s b.bytes) : parse s = .ok b := by
  obtain ⟨digits, letter, e, shaped, power, bytes⟩ := denotes
  have found := split?_eq_some.mpr ⟨shaped, isUnitLetter_of_power power⟩
  have small : ¬UInt64.size ≤ Decimal.valueOf digits := by
    have most : Nat.ofDigitChars 10 digits 0 ≤ b.bytes := by
      rw [bytes]
      exact Nat.le_mul_of_pos_right _ (Nat.pow_pos (by decide))
    exact Nat.not_le_of_lt (Nat.lt_of_le_of_lt most b.fits)
  have fits : Decimal.valueOf digits * Nat.pow 1024 e < UInt64.size := bytes ▸ b.fits
  unfold parse
  rw [found]
  dsimp only
  rw [if_neg small, elim_exponent?_eq_some.mpr power]
  dsimp only
  rw [dif_pos fits]
  congr 2
  exact bytes.symm

/-- Reading takes exactly the texts that say a number of bytes which fits into 64 bits, and gives
this number. Every other text is refused, with an error that tells why. -/
theorem parse_takes_size_texts (s : String) :
    (∀ n, (∃ b, parse s = .ok b ∧ b.bytes = n) ↔ Denotes s n ∧ n < UInt64.size) ∧
      ((∃ n, Denotes s n ∧ n < UInt64.size) ∨
        ∃ fault, parse s = .error fault ∧ Refused s fault) := by
  constructor
  · intro n
    constructor
    · rintro ⟨b, read, rfl⟩
      refine ⟨?_, b.fits⟩
      rcases parse_outcome s with ⟨b', read', denotes⟩ | ⟨fault, failed, -⟩
      · cases read.symm.trans read'
        exact denotes
      · cases read.symm.trans failed
    · rintro ⟨denotes, fits⟩
      exact ⟨⟨n, fits⟩, parse_of_denotes denotes, rfl⟩
  · rcases parse_outcome s with ⟨b, -, denotes⟩ | refused
    · exact .inl ⟨b.bytes, denotes, b.fits⟩
    · exact .inr refused

/-- The largest count of its unit, with blanks that are not ASCII, and the next one. -/
example : (parse "\u2003016777215\u00a0tB\n").toOption.map bytes = some 18446742974197923840 ∧
    parse "16777216T" = .error (.overflow "16777216T") := by
  decide +kernel

/-- A kelvin sign is no unit, even where the count would fit. -/
example : parse "5\u212a" = .error (.unknownUnit '\u212a') := by
  decide +kernel

end LogTopology.ByteSize
