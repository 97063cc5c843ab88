import LogTopology.Proofs.LogFile.Name
/-!
# Where the files of the days are

The file of a day has the date in its name, and different dates make different names, whatever path
the log goes by and however many characters a year takes (`dayName_injective`). All of them are
named in one directory, so on one disk two days never share a place: `date_eq_of_locate`.

A year may have more than four digits, and a negative one begins with a dash, so a date is not read
by counting characters. It is read from its end: the last dash stands before the day, the one before
it in front of the month, and padded numbers have no dash in them (`not_mem_padded`).
-/

namespace LogTopology.LogFile

open PathText
open Calendar (Date)

variable {base : String}

/-! ## Numbers in names -/

/-- Numbers that are padded to one width with zeros are read back. -/
theorem padded_injective {width n m : Nat} (h : Decimal.padded width n = Decimal.padded width m) :
    n = m := by
  have value : ∀ k, Nat.ofDigitChars 10 (Decimal.padded width k) 0 = k := by
    intro k
    simp [Decimal.padded, Nat.ofDigitChars_append, Nat.ofDigitChars_replicate_zero]
  rw [← value n, h, value]

/-- A padded number has digits only. -/
theorem isDigit_of_mem_padded {width n : Nat} {c : Char} (mem : c ∈ Decimal.padded width n) :
    c.isDigit = true := by
  rcases List.mem_append.mp mem with zero | digit
  · rw [List.eq_of_mem_replicate zero]
    rfl
  · exact Nat.isDigit_of_mem_toDigits (by omega) (by omega) digit

/-- A padded number has no character that is no digit. -/
theorem not_mem_padded {width n : Nat} {c : Char} (other : c.isDigit = false) :
    c ∉ Decimal.padded width n := by
  intro mem
  rw [isDigit_of_mem_padded mem] at other
  cases other

/-- Years are read back, negative ones and those of more than four digits too. -/
theorem yearMark_injective {year other : Int} (h : yearMark year = yearMark other) :
    year = other := by
  unfold yearMark at h
  have unsigned : ∀ n rest, '-' :: rest ≠ Decimal.padded 4 n := by
    intro n rest same
    have mem : '-' ∈ Decimal.padded 4 n := by simp [← same]
    exact not_mem_padded rfl mem
  split at h <;> split at h
  · have := padded_injective (List.cons.inj h).2
    omega
  · exact absurd h (unsigned _ _)
  · exact absurd h.symm (unsigned _ _)
  · have := padded_injective h
    omega

/-! ## Dates in names -/

/-- What comes before and behind the last one of a character is known from the whole. -/
theorem append_cons_inj_of_not_mem {front front' back back' : List Char} {c : Char}
    (none : c ∉ back) (none' : c ∉ back') (h : front ++ c :: back = front' ++ c :: back') :
    front = front' ∧ back = back' := by
  have pieces := congrArg (List.splitOn c) h
  rw [List.splitOn_append_cons_self, List.splitOn_append_cons_self,
    List.splitOn_eq_singleton none, List.splitOn_eq_singleton none'] at pieces
  obtain ⟨fronts, backs⟩ := List.append_inj' pieces rfl
  refine ⟨?_, (List.cons.inj backs).1⟩
  simpa using congrArg [c].intercalate fronts

/-- Dates are read back from their marks. -/
theorem dateMark_injective {a b : Date} (h : dateMark a = dateMark b) : a = b := by
  obtain ⟨h, days⟩ := append_cons_inj_of_not_mem (not_mem_padded rfl) (not_mem_padded rfl) h
  obtain ⟨years, months⟩ := append_cons_inj_of_not_mem (not_mem_padded rfl) (not_mem_padded rfl) h
  have year := yearMark_injective years
  have month := padded_injective months
  have day := padded_injective days
  cases a
  cases b
  simp_all

/-- The mark of a day. -/
def dayMark (date : Date) : List Char :=
  '_' :: dateMark date

/-- Dates are read back from the marks of their days. -/
theorem dayMark_injective {a b : Date} (h : dayMark a = dayMark b) : a = b :=
  dateMark_injective (List.cons.inj h).2

/-- No mark of a day has a slash, so it names no directory. -/
theorem dayMark_slashFree (date : Date) : '/' ∉ dayMark date := by
  have year : '/' ∉ yearMark date.year := by
    unfold yearMark
    split
    · simp [not_mem_padded]
    · exact not_mem_padded rfl
  simp [dayMark, dateMark, year, not_mem_padded]

/-! ## Files of days -/

/-- All marked paths of a log lead through the same names to their own file. -/
theorem splitOn_marked_of_any (base : String) :
    ∃ names root, ∀ mark, '/' ∉ mark →
      ∃ front, (marked base mark).toList.splitOn '/' = front ++ [markedFile base mark] ∧
        (front.filter fun s => !isVoid s) = names ∧ Disk.start (marked base mark) = root := by
  cases h : fileName? base with
  | some name => exact ⟨_, _, fun mark hmark => splitOn_marked h hmark⟩
  | none =>
    refine ⟨solid base.toList, Disk.start base, fun mark hmark => ?_⟩
    have file : markedFile base mark = mark := by
      simp [markedFile, stem, extension?, h]
    have text : marked base mark = child base.toList mark := by
      simp [marked, withFileName, stem, extension?, h]
    obtain ⟨front, hsplit, hfront⟩ := splitOn_child base.toList hmark
    refine ⟨front, ?_, hfront, ?_⟩
    · rw [text, file, hsplit]
    · unfold Disk.start
      rw [text]
      simp only [head?_child base.toList hmark]

/-- The place of a path that ends with a name is in the directory that the names before lead to. -/
theorem place_eq_of_locate {d : Disk} {path : String} {p : Place} {front : List (List Char)}
    {file : List Char} (hsplit : path.toList.splitOn '/' = front ++ [file])
    (named : isVoid file = false) (down : file ≠ ['.', '.']) (h : d.locate path = .ok p) :
    ∃ dir, d.follow (Disk.start path)
        ((front.filter fun s => !isVoid s).map String.ofList) = .ok dir ∧
      p = dir ++ [String.ofList file] := by
  have notUp : String.ofList file ≠ ".." := by
    intro same
    exact down (String.ofList_injective same)
  have void : Disk.isVoidName (String.ofList file) = false := by
    rw [Disk.isVoidName_ofList, named]
  rw [Disk.locate_eq hsplit named, Disk.follow_append] at h
  split at h
  · cases h
  split at h
  · cases h
  obtain ⟨dir, way, last⟩ := Setup.bind_eq_ok.mp h
  rw [Disk.follow_named void (Disk.at?_of_follow_cons last), Disk.into, if_neg notUp] at last
  split at last
  · cases last
  · exact ⟨dir, way, (Except.ok.inj last).symm⟩

/-- On one disk, two days whose files are at the same place are the same day. -/
theorem date_eq_of_locate {d : Disk} {a b : Date} {p : Place}
    (atA : d.locate (dayName base a) = .ok p) (atB : d.locate (dayName base b) = .ok p) : a = b := by
  obtain ⟨names, root, leads⟩ := splitOn_marked_of_any base
  have place : ∀ date, d.locate (dayName base date) = .ok p →
      ∃ dir, d.follow root (names.map String.ofList) = .ok dir ∧
        p = dir ++ [String.ofList (markedFile base (dayMark date))] := by
    intro date located
    obtain ⟨front, hsplit, rfl, rfl⟩ := leads (dayMark date) (dayMark_slashFree date)
    have mem : '_' ∈ markedFile base (dayMark date) := by simp [markedFile, dayMark]
    obtain ⟨named, down⟩ := named_of_mem mem (by decide)
    exact place_eq_of_locate hsplit named down located
  obtain ⟨dir, way, here⟩ := place a atA
  obtain ⟨dir', way', here'⟩ := place b atB
  have last := (List.append_inj' (here.symm.trans here') rfl).2
  exact dayMark_injective (markedFile_injective (String.ofList_injective (List.cons.inj last).1))

/-- Different days have different paths. -/
theorem dayName_injective {a b : Date} (h : dayName base a = dayName base b) : a = b := by
  obtain ⟨names, root, leads⟩ := splitOn_marked_of_any base
  obtain ⟨front, hsplit, -⟩ := leads (dayMark a) (dayMark_slashFree a)
  obtain ⟨front', hsplit', -⟩ := leads (dayMark b) (dayMark_slashFree b)
  have same : marked base (dayMark a) = marked base (dayMark b) := h
  rw [same, hsplit'] at hsplit
  have last := (List.append_inj' hsplit rfl).2
  exact (dayMark_injective (markedFile_injective (List.cons.inj last).1)).symm

end LogTopology.LogFile
