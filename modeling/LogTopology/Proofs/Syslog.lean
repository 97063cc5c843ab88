import LogTopology.Syslog
/-!
# Priorities of the system log

A priority is computed on words of 32 bits: the facility is masked and joined with the severity.
`priority_eq_toNat` proves this equal to the sum that the model adds up, for every facility,
negative ones included. The proof compares bits: the severity takes up the lowest three, the mask
leaves those from the third to the ninth, and so the two never meet.

For a facility that is a code times eight, with a code of at most 23, nothing is masked away
(`FacilityInRange.separable`), and facility and severity can be read back from the priority. For any
other facility the priority is still defined, but different facilities may then share one.

A frame starts with its priority between angle brackets (`priority_isPrefix_frame`). What follows in
the frame, and whether a daemon accepts it, is not told.
-/

namespace LogTopology.Syslog

/-! ## Masks -/

/-- Masking with the bits of the facility drops the severity and what is above 1023. The mask is
that of the bits 3 to 9. -/
theorem and_facilityMask (n : Nat) : n &&& 0x3f8 = n % 1024 / 8 * 8 := by
  have mask : 0x3f8 = (2 ^ 7 - 1) * 2 ^ 3 := rfl
  have shifted : n % 1024 / 8 * 8 = n % 2 ^ 10 / 2 ^ 3 * 2 ^ 3 := rfl
  rw [mask, shifted]
  refine Nat.eq_of_testBit_eq fun i => ?_
  simp only [Nat.testBit_and, Nat.testBit_mul_two_pow, Nat.testBit_two_pow_sub_one,
    Nat.testBit_div_two_pow, Nat.testBit_mod_two_pow]
  by_cases low : 3 ≤ i
  · have back : i - 3 + 3 = i := by omega
    have bound : i - 3 < 7 ↔ i < 10 := by omega
    simp only [low, back, bound, decide_true, Bool.true_and]
    exact Bool.and_comm _ _
  · simp only [low, decide_false, Bool.false_and, Bool.and_false]

/-- The bits that the model computes with division are those of the mask on words, for negative
facilities too. -/
theorem facilityBits_eq_toNat (facility : Int) :
    facilityBits facility = (BitVec.ofInt 32 facility &&& 0x3f8#32).toNat := by
  have word : (facility % ((2 ^ 32 : Nat) : Int)).toNat % 1024 = (facility.emod 1024).toNat := by
    change _ = (facility % 1024).toNat
    omega
  rw [facilityBits, BitVec.toNat_and, BitVec.toNat_ofInt]
  change _ = _ &&& 0x3f8
  rw [and_facilityMask, word]

/-- A severity takes up three bits. -/
theorem severity_lt (level : Level) : severity level < 8 := by
  cases level <;> decide

/-- The priority is the masked facility joined with the severity, as words of 32 bits. -/
theorem priority_eq_toNat (s : Speaker) (level : Level) :
    priority s level =
      ((BitVec.ofInt 32 s.facility &&& 0x3f8#32) ||| BitVec.ofNat 32 (severity level)).toNat := by
  have small := severity_lt level
  have asWord : (BitVec.ofNat 32 (severity level)).toNat = severity level := by
    rw [BitVec.toNat_ofNat]
    exact Nat.mod_eq_of_lt (by omega)
  rw [BitVec.toNat_or, asWord, ← facilityBits_eq_toNat, priority, facilityBits,
    Nat.mul_comm ((s.facility.emod 1024).toNat / 8) 8]
  exact Nat.two_pow_add_eq_or_of_lt (i := 3) small _

/-- A frame starts with the priority between angle brackets. -/
theorem priority_isPrefix_frame (process : Nat) (s : Speaker) (level : Level) (line : Line) :
    '<' :: Nat.toDigits 10 (priority s level) ++ ['>'] <+: frame process s level line := by
  refine ⟨speakerText process s ++ dropNewlines line.text, ?_⟩
  rw [frame, ← List.append_assoc, List.append_assoc _ ['>']]
  rfl

/-! ## Facilities in range -/

/-- A facility that stands for one of the codes up to 23. -/
structure FacilityInRange (facility : Int) : Prop where
  nonneg : 0 ≤ facility
  le : facility ≤ 184
  aligned : facility % 8 = 0

/-- The priority in the frames of lines of a level, where the facility is in range: nothing is masked
away, and both parts can be read back. -/
structure Separable (s : Speaker) (level : Level) : Prop where
  /-- The priority as it is computed, on words. -/
  word : priority s level =
    ((BitVec.ofInt 32 s.facility &&& 0x3f8#32) ||| BitVec.ofNat 32 (severity level)).toNat
  sum : (priority s level : Int) = s.facility + severity level
  le : priority s level ≤ 191
  facility : ((priority s level / 8 * 8 : Nat) : Int) = s.facility
  severity : priority s level % 8 = severity level
  framed : ∀ process line,
    '<' :: Nat.toDigits 10 (priority s level) ++ ['>'] <+: frame process s level line

/-- A facility in range is neither masked away nor mixed up with the severity. -/
theorem FacilityInRange.separable {s : Speaker} (inRange : FacilityInRange s.facility)
    (level : Level) : Separable s level := by
  obtain ⟨nonneg, le, aligned⟩ := inRange
  have small := severity_lt level
  have unmasked : (facilityBits s.facility : Int) = s.facility := by
    change (((s.facility % 1024).toNat / 8 * 8 : Nat) : Int) = _
    omega
  have sum : (priority s level : Int) = s.facility + severity level := by
    rw [priority, Int.natCast_add, unmasked]
  exact ⟨priority_eq_toNat s level, sum, by omega, by omega, by omega,
    fun process line => priority_isPrefix_frame process s level line⟩

end LogTopology.Syslog
