import LogTopology.Proofs.LogFile.Dates
/-!
# The files of one log are apart

Beside the file that a log is given lie the copies that were put aside, with their numbers in their
names, and the files of the days, with their dates. `names_never_collide` says that all of them are
names in the directory of the log's own file, that two numbers never have one name, and neither have
two dates. It holds for every path with a file name: a name may begin or end with its only dot, and a
year may be negative or take more than four digits.

Files of different logs may share a name: `app.1` is the first copy of `app`, and may be a log itself.

The facts about names are those of marks and dates: a mark without a slash stays in the directory of
the log (`liesIn_marked`), and marks are read back from names. That the two kinds never meet is not
said here: the file of a day belongs to a log that changes daily, and numbered copies to one of
bounded size.
-/

namespace LogTopology.LogFile

open PathText
open Calendar (Date)

variable {base directory : String} {name mark : List Char}

/-- A path names a file in a directory. -/
structure LiesIn (directory path : String) (name : List Char) : Prop where
  directory : parent? path = some directory
  name : fileName? path = some name

/-- A mark without a slash that is more than dots makes a name in the directory of the log. -/
theorem liesIn_marked (file : LiesIn directory base name) (slashFree : '/' ∉ mark)
    (solidMark : ∃ c ∈ mark, c ≠ '.') :
    LiesIn directory (marked base mark) (markedFile base mark) := by
  obtain ⟨c, mem, other⟩ := solidMark
  have inFile : c ∈ markedFile base mark :=
    List.mem_append_left _ (List.mem_append_right _ mem)
  obtain ⟨named, down⟩ := named_of_mem inFile other
  obtain ⟨front, hsplit, -, -⟩ := splitOn_marked file.name slashFree
  refine ⟨?_, fileName?_eq_some hsplit named down⟩
  have text : marked base mark = child directory.toList (markedFile base mark) := by
    unfold marked withFileName
    rw [file.name, file.directory]
    rfl
  rw [text]
  exact parent?_child file.name file.directory named (not_mem_markedFile file.name slashFree)

/-- A copy is named in the directory of the live file. -/
theorem liesIn_copyName (file : LiesIn directory base name) (index : Nat) :
    LiesIn directory (copyName base index) (copyFile base index) := by
  by_cases live : index = 0
  · have text : copyName base index = base := if_pos live
    have own : copyFile base index = name := by
      unfold copyFile copyMark
      rw [if_pos live]
      exact markedFile_nil file.name
    rw [text, own]
    exact file
  · have text : copyName base index = marked base (copyMark index) := by
      unfold copyName copyMark
      rw [if_neg live, if_neg live]
    rw [text]
    exact liesIn_marked file (copyMark_slashFree index) (exists_mem_copyMark live)

/-- The file of a day is named in the directory of the log's own path. -/
theorem liesIn_dayName (file : LiesIn directory base name) (date : Date) :
    LiesIn directory (dayName base date) (markedFile base (dayMark date)) :=
  liesIn_marked file (dayMark_slashFree date) ⟨'_', List.mem_cons_self, by decide⟩

/-- **File names of a log never collide.** For a path with a file name, the copies are files of
different names in the directory of the path, copy 0 being the file itself, and the files of the days
are files of different names there, too. -/
theorem names_never_collide (file : fileName? base = some name) :
    copyName base 0 = base ∧
      ∃ directory, LiesIn directory base name ∧
        (∀ index, LiesIn directory (copyName base index) (copyFile base index)) ∧
        (∀ i j, i ≠ j → fileName? (copyName base i) ≠ fileName? (copyName base j)) ∧
        (∀ date, LiesIn directory (dayName base date) (markedFile base (dayMark date))) ∧
        (∀ a b : Date, a ≠ b → fileName? (dayName base a) ≠ fileName? (dayName base b)) := by
  obtain ⟨directory, here, -, -⟩ := solid_eq_of_fileName? file
  have live : LiesIn directory base name := ⟨here, file⟩
  refine ⟨rfl, directory, live, liesIn_copyName live, fun i j apart same => apart ?_,
    liesIn_dayName live, fun a b apart same => apart ?_⟩
  · rw [(liesIn_copyName live i).name, (liesIn_copyName live j).name] at same
    exact copyFile_injective (Option.some.inj same)
  · rw [(liesIn_dayName live a).name, (liesIn_dayName live b).name] at same
    exact dayMark_injective (markedFile_injective (Option.some.inj same))

/-- A hidden file whose name ends in a dot, in a directory that is written with dots: a copy of two
digits, a year before year zero and one of five digits. -/
theorem dotted_names_are_apart :
    let base := "./logs//./.日志."
    fileName? base = some ['.', '日', '志', '.'] ∧ copyName base 12 = "./logs/.日志.12." ∧
      dayName base ⟨-7, 2, 3⟩ = "./logs/.日志_-007-02-03." ∧
      dayName base ⟨12345, 2, 3⟩ = "./logs/.日志_12345-02-03." ∧
      copyName base 0 = base ∧
      ∃ directory, LiesIn directory base ['.', '日', '志', '.'] ∧
        (∀ index, LiesIn directory (copyName base index) (copyFile base index)) ∧
        (∀ i j, i ≠ j → fileName? (copyName base i) ≠ fileName? (copyName base j)) ∧
        (∀ date, LiesIn directory (dayName base date) (markedFile base (dayMark date))) ∧
        (∀ a b : Date, a ≠ b → fileName? (dayName base a) ≠ fileName? (dayName base b)) := by
  have file : fileName? "./logs//./.日志." = some ['.', '日', '志', '.'] := by rfl
  have copy : copyName "./logs//./.日志." 12 = "./logs/.日志.12." := by rfl
  have early : dayName "./logs//./.日志." ⟨-7, 2, 3⟩ = "./logs/.日志_-007-02-03." := by rfl
  have late : dayName "./logs//./.日志." ⟨12345, 2, 3⟩ = "./logs/.日志_12345-02-03." := by decide
  exact ⟨file, copy, early, late, names_never_collide file⟩

end LogTopology.LogFile
