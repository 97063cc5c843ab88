import LogTopology.Document.Decode
import LogTopology.Proofs.ByteSize.Reading
/-!
# The text of a byte count

A byte count is written in the largest unit that divides it, and the number in front is the whole
quotient (`exists_shows`). This text says the count that it was written for, so it is read back as
such, by itself and as the value of a field (`toText_canonical_and_read_back`). Whatever text a
count was read from, writing it and reading that again changes nothing.

`Shows` tells what a text looks like that shows a count in a unit, and `Largest` which unit it is.
The units are tried from the largest down, so the first that divides the count is the largest that
does (`find?_unitsUpTo`). That the text is read back is then a case of the texts that reading takes
(`parse_of_denotes`), where the unit is the letter and the number has no sign and no blanks.

The other way round there is no such law: many texts say one count, and reading forgets which.
-/

namespace LogTopology.ByteSize

variable {b : ByteSize} {n e : Nat} {s : String}

/-- The letter behind a number of units, each of so many powers of 1024 bytes. -/
def unitMark : Nat → Char
  | 0 => 'B'
  | 1 => 'K'
  | 2 => 'M'
  | 3 => 'G'
  | _ => 'T'

/-- A text shows a count in a unit that divides it. -/
structure Shows (s : String) (n e : Nat) : Prop where
  text : s.toList = Nat.toDigits 10 (n / Nat.pow 1024 e) ++ [unitMark e]
  known : e ≤ 4
  divides : Nat.pow 1024 e ∣ n

/-- The unit is the largest that divides the count; nothing is written in bytes. -/
structure Largest (n e : Nat) : Prop where
  ofNone : n = 0 → e = 0
  ofSome : n ≠ 0 → ∀ k, k ≤ 4 → Nat.pow 1024 k ∣ n → k ≤ e

/-! ## The unit -/

/-- The units up to a power of 1024, the largest first. -/
def unitsUpTo : Nat → List (Nat × Char)
  | 0 => []
  | e + 1 => (Nat.pow 1024 (e + 1), unitMark (e + 1)) :: unitsUpTo e

/-- The first unit that divides a count is the largest that does. -/
theorem find?_unitsUpTo (n last : Nat) :
    ∃ e, e ≤ last ∧ Nat.pow 1024 e ∣ n ∧ (∀ k, k ≤ last → Nat.pow 1024 k ∣ n → k ≤ e) ∧
      ((unitsUpTo last).find? fun u => n % u.1 = 0).getD (1, 'B') =
        (Nat.pow 1024 e, unitMark e) := by
  induction last with
  | zero => exact ⟨0, Nat.le_refl 0, Nat.one_dvd n, fun _ known _ => known, rfl⟩
  | succ last ih =>
    rw [unitsUpTo]
    by_cases here : Nat.pow 1024 (last + 1) ∣ n
    · refine ⟨last + 1, Nat.le_refl _, here, fun _ known _ => known, ?_⟩
      rw [List.find?_cons_of_pos (by simpa using Nat.mod_eq_zero_of_dvd here)]
      rfl
    · obtain ⟨e, known, divides, largest, found⟩ := ih
      refine ⟨e, Nat.le_succ_of_le known, divides, fun k bound divides' => ?_, ?_⟩
      · rcases Nat.lt_or_eq_of_le bound with below | rfl
        · exact largest k (Nat.le_of_lt_succ below) divides'
        · exact absurd divides' here
      · rw [List.find?_cons_of_neg (by simpa [Nat.dvd_iff_mod_eq_zero] using here)]
        exact found

/-- A count is shown in the largest unit that divides it. -/
theorem exists_shows (b : ByteSize) : ∃ e, Shows b.toText b.bytes e ∧ Largest b.bytes e := by
  have text (e : Nat) (unit : (if b.bytes = 0 then (1, 'B') else
      (units.find? fun u => b.bytes % u.1 = 0).getD (1, 'B')) = (Nat.pow 1024 e, unitMark e)) :
      b.toText.toList = Nat.toDigits 10 (b.bytes / Nat.pow 1024 e) ++ [unitMark e] := by
    rw [toText, unit, String.toList_append, String.toList_singleton]
    exact congrArg (· ++ [unitMark e]) Nat.toList_repr
  by_cases none : b.bytes = 0
  · refine ⟨0, ⟨text 0 (if_pos none), Nat.zero_le 4, Nat.one_dvd _⟩, fun _ => rfl, ?_⟩
    intro some
    exact absurd none some
  · obtain ⟨e, known, divides, largest, found⟩ := find?_unitsUpTo b.bytes 4
    exact ⟨e, ⟨text e ((if_neg none).trans found), known, divides⟩, fun h => absurd h none,
      fun _ => largest⟩

/-! ## Reading it back -/

/-- A text that shows a count says it. -/
theorem Shows.denotes (shows : Shows s n e) : Denotes s n := by
  obtain ⟨text, known, divides⟩ := shows
  have decimal : ∀ c ∈ Nat.toDigits 10 (n / Nat.pow 1024 e), c.isDigit = true :=
    fun c mem => Nat.isDigit_of_mem_toDigits (by decide) (by decide) mem
  have said (letter : Option Char) (mark : List Char) (marked : mark ∈ byteMarks)
      (behind : letter.toList ++ mark = [unitMark e]) (power : Power letter e) : Denotes s n := by
    refine ⟨_, letter, e, ⟨Nat.toDigits_ne_nil, decimal, [], [], mark, [], ?_⟩, power, ?_⟩
    · refine ⟨List.forall_mem_nil _, List.forall_mem_nil _, marked, List.forall_mem_nil _, ?_⟩
      rw [text, List.append_nil, List.nil_append, List.nil_append, behind]
    · rw [Nat.ofDigitChars_toDigits (by decide) (by decide), Nat.div_mul_cancel divides]
  have unmarked : [] ∈ byteMarks := List.mem_cons_self
  rcases e with _ | _ | _ | _ | _ | e
  · exact said none ['B'] (List.mem_cons_of_mem _ List.mem_cons_self) rfl .none
  · exact said (some 'K') [] unmarked rfl (.kilo (.inl rfl))
  · exact said (some 'M') [] unmarked rfl (.mega (.inl rfl))
  · exact said (some 'G') [] unmarked rfl (.giga (.inl rfl))
  · exact said (some 'T') [] unmarked rfl (.tera (.inl rfl))
  · omega

/-- The text of a byte count is read back as this byte count. -/
theorem parse_toText (b : ByteSize) : parse b.toText = .ok b := by
  obtain ⟨e, shows, -⟩ := exists_shows b
  exact parse_of_denotes shows.denotes

/-- Every byte count is written in the largest unit that divides it, and what is written is read
back to the same count, also where it stands in a document. A count that was read from any text is
the same when it is written and read again. -/
theorem toText_canonical_and_read_back (b : ByteSize) :
    (∃ e, Shows b.toText b.bytes e ∧ Largest b.bytes e) ∧ parse b.toText = .ok b ∧
      Document.Decoder.byteSize (.text b.toText) = .ok b ∧
      ∀ s, (parse s >>= fun read => parse read.toText) = parse s := by
  have back := parse_toText b
  refine ⟨exists_shows b, back, ?_, fun s => ?_⟩
  · unfold Document.Decoder.byteSize Document.Decoder.string
    dsimp only [bind, Except.bind]
    rw [back]
    rfl
  · cases read : parse s with
    | error fault => rfl
    | ok c => exact parse_toText c

/-- The largest whole count of its unit, and one byte more. -/
example : toText ⟨18446742974197923840, by decide⟩ = "16777215T" ∧
    toText ⟨18446742974197923841, by decide⟩ = "18446742974197923841B" := by
  decide +kernel

end LogTopology.ByteSize
