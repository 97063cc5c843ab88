import LogTopology.LogFile.Name
import LogTopology.Proofs.Disk.Places
/-!
# Where the files of a log are

The marked names of a log file are names in its directory, and different marks make different names.
So the copies of a log file never share a place: `locate_copyName` and `copyFile_injective`.

A mark goes between the stem of a file name and its extension, or to its end when it has none. Stem
and extension are those of the log's own name for every mark, so the mark is what is left without
them (`markedFile_injective`). It has no slash, so the marked path is a file in the same directory
(`splitOn_marked`).

`Leads` says that the directory of a log is there, told by following the names of the path; it holds
on every disk on which the open places stayed open (`Leads.of_keeps`), and of every path that leads
to something else than a directory (`leads_of_locate`).
-/

namespace LogTopology.LogFile

open PathText

variable {base : String} {name : List Char}

/-! ## File names -/

/-- The file name of a marked path. -/
def markedFile (base : String) (mark : List Char) : List Char :=
  stem base ++ mark ++ (extension? base).elim [] ('.' :: ·)

/-- The mark of a copy. -/
def copyMark (index : Nat) : List Char :=
  if index = 0 then [] else '.' :: Nat.toDigits 10 index

/-- The file name of a copy. -/
def copyFile (base : String) (index : Nat) : List Char :=
  markedFile base (copyMark index)

/-- Without a mark the file name is the log's own. -/
theorem markedFile_nil (h : fileName? base = some name) : markedFile base [] = name := by
  unfold markedFile stem extension?
  rw [h, List.append_nil]
  exact splitName_append name

/-- Marks are read back from the names of marked files: stem and extension stand around them. -/
theorem markedFile_injective {mark other : List Char}
    (h : markedFile base mark = markedFile base other) : mark = other := by
  unfold markedFile at h
  rw [List.append_assoc, List.append_assoc] at h
  exact List.append_cancel_right (List.append_cancel_left h)

/-- Numbers are read back from the marks of copies. -/
theorem copyMark_injective {i j : Nat} (h : copyMark i = copyMark j) : i = j := by
  unfold copyMark at h
  split at h <;> split at h
  · omega
  · cases h
  · cases h
  · injection h with _ digits
    rw [← Nat.ofDigitChars_ten_toDigits (n := i), digits, Nat.ofDigitChars_ten_toDigits]

/-- Copies with different numbers have different file names. -/
theorem copyFile_injective {i j : Nat} (h : copyFile base i = copyFile base j) : i = j :=
  copyMark_injective (markedFile_injective h)

/-! ## Marked paths -/

/-- A name with another character than a dot names something. -/
theorem named_of_mem {s : List Char} {c : Char} (mem : c ∈ s) (hc : c ≠ '.') :
    isVoid s = false ∧ s ≠ ['.', '.'] := by
  constructor
  · apply eq_false_of_ne_true
    intro void
    rcases Bool.or_eq_true_iff.mp void with empty | dot
    · rw [of_decide_eq_true empty] at mem
      cases mem
    · rw [of_decide_eq_true dot, List.mem_singleton] at mem
      exact hc mem
  · rintro rfl
    simp at mem
    exact hc mem

/-- The last segment of a path is the last one behind any of its slashes. -/
theorem getLast?_splitOn_append_slash (front back : List Char) :
    ((front ++ '/' :: back).splitOn '/').getLast? = (back.splitOn '/').getLast? := by
  rw [List.splitOn_append_cons_self, List.getLast?_append_of_ne_nil]
  exact List.splitOn_ne_nil '/' back

/-- A path whose last segment names a file has it as its file name. -/
theorem fileName?_eq_some {front : List (List Char)}
    (hsplit : base.toList.splitOn '/' = front ++ [name]) (named : isVoid name = false)
    (down : name ≠ ['.', '.']) : fileName? base = some name := by
  have last : ((splitLead base.toList).2.splitOn '/').getLast? = some name := by
    have whole : (base.toList.splitOn '/').getLast? = some name := by
      rw [hsplit, List.getLast?_concat]
    generalize base.toList = cs at whole
    unfold splitLead
    split
    · rw [← whole]
      exact (getLast?_splitOn_append_slash [] _).symm
    · cases whole
      cases named
    · rw [← whole]
      exact (getLast?_splitOn_append_slash [] _).trans (getLast?_splitOn_append_slash ['.'] _).symm
    · exact whole
  obtain ⟨front', hfront⟩ := List.getLast?_eq_some_iff.mp last
  have kept : segments base.toList = front' ++ [name] := by
    unfold segments
    rw [hfront]
    exact List.rdropWhile_concat_neg isVoid front' name (ne_true_of_eq_false named)
  unfold fileName?
  rw [kept, List.getLast?_concat, Option.filter_some_pos]
  simpa using down

/-- The directory of a log file on a disk. -/
structure Leads (d : Disk) (base : String) (dir : Place) : Prop where
  file : ∃ front name, base.toList.splitOn '/' = front ++ [name] ∧ isVoid name = false ∧
    name ≠ ['.', '.']
  way : d.follow (Disk.start base) ((solid base.toList).dropLast.map String.ofList) = .ok dir
  isOpen : d.Open dir

/-- The directory of a log is the same on any disk that keeps the open places. -/
theorem Leads.of_keeps {d d' : Disk} {dir : Place} (leads : Leads d base dir)
    (keeps : Disk.Keeps d d') : Leads d' base dir :=
  ⟨leads.file, (Disk.follow_of_keeps keeps (Disk.reached_start base) leads.way).2,
    keeps dir leads.isOpen⟩

/-- All segments but the last one lead to the directory. -/
theorem dropLast_solid {front : List (List Char)}
    (hsplit : base.toList.splitOn '/' = front ++ [name]) (named : isVoid name = false) :
    (solid base.toList).dropLast = front.filter fun s => !isVoid s := by
  unfold solid
  rw [hsplit, List.filter_append, List.filter_cons_of_pos (by simp [named]), List.filter_nil,
    List.dropLast_concat]

/-- A path that leads to something else than a directory has a directory of its own. -/
theorem leads_of_locate {d : Disk} {p : Place} (located : d.locate base = .ok p)
    (other : d.at? p ≠ some .directory) (noSlash : Disk.endsWithSlash base = false) :
    ∃ dir, Leads d base dir := by
  obtain ⟨front, name, dir, hsplit, named, down, isOpen, way⟩ :=
    Disk.named_of_locate located other noSlash
  refine ⟨dir, ⟨front, name, hsplit, named, down⟩, ?_, isOpen⟩
  rw [dropLast_solid hsplit named]
  exact way

/-- No file name contains a slash. -/
theorem not_mem_of_fileName? (h : fileName? base = some name) : '/' ∉ name := by
  obtain ⟨directory, -, hsolid, -⟩ := solid_eq_of_fileName? h
  have mem : name ∈ solid base.toList := by
    rw [hsolid]
    exact List.mem_append_right _ (List.mem_singleton_self name)
  exact not_mem_of_mem_splitOn (List.mem_filter.mp mem).1

/-- A mark without a slash leaves the file name without one. -/
theorem not_mem_markedFile {mark : List Char} (h : fileName? base = some name)
    (hmark : '/' ∉ mark) : '/' ∉ markedFile base mark := by
  have whole := not_mem_of_fileName? h
  rw [← markedFile_nil h] at whole
  unfold markedFile at whole ⊢
  rw [List.append_nil] at whole
  intro mem
  rcases List.mem_append.mp mem with front | ext
  · rcases List.mem_append.mp front with inStem | inMark
    · exact whole (List.mem_append_left _ inStem)
    · exact hmark inMark
  · exact whole (List.mem_append_right _ ext)

/-- A marked path is a file in the directory of its base. -/
theorem splitOn_marked {mark : List Char} (h : fileName? base = some name)
    (hmark : '/' ∉ mark) :
    ∃ front, (marked base mark).toList.splitOn '/' = front ++ [markedFile base mark] ∧
      (front.filter fun s => !isVoid s) = (solid base.toList).dropLast ∧
      Disk.start (marked base mark) = Disk.start base := by
  obtain ⟨directory, hparent, hsolid, hhead⟩ := solid_eq_of_fileName? h
  have slashFree := not_mem_markedFile h hmark
  obtain ⟨front, hsplit, hfront⟩ := splitOn_child directory.toList slashFree
  have text : marked base mark = child directory.toList (markedFile base mark) := by
    unfold marked withFileName
    rw [h, hparent]
    rfl
  refine ⟨front, ?_, ?_, ?_⟩
  · rw [text, hsplit]
  · rw [hfront, hsolid, List.dropLast_concat]
  · unfold Disk.start
    rw [text]
    simp only [head?_child directory.toList slashFree, hhead]

/-- No mark of a copy has a slash, so copies are in the directory of the live file. -/
theorem copyMark_slashFree (index : Nat) : '/' ∉ copyMark index := by
  unfold copyMark
  split
  · exact List.not_mem_nil
  · intro mem
    rcases List.mem_cons.mp mem with dot | digit
    · cases dot
    · have := Nat.isDigit_of_mem_toDigits (by omega) (by omega) digit
      cases this

/-- The mark of a copy has a digit in it. -/
theorem exists_mem_copyMark {index : Nat} (h : index ≠ 0) : ∃ c ∈ copyMark index, c ≠ '.' := by
  obtain ⟨c, rest, digits⟩ := List.exists_cons_of_ne_nil
    (Nat.toDigits_ne_nil (n := index) (b := 10))
  have mem : c ∈ Nat.toDigits 10 index := by
    rw [digits]
    exact List.mem_cons_self
  refine ⟨c, ?_, ?_⟩
  · unfold copyMark
    rw [if_neg h]
    exact List.mem_cons_of_mem _ mem
  · rintro rfl
    have := Nat.isDigit_of_mem_toDigits (by omega) (by omega) mem
    cases this

/-- The path of a copy is made of the names that lead to the directory and its own name. -/
theorem splitOn_copyName {d : Disk} {dir : Place} (leads : Leads d base dir) (index : Nat) :
    ∃ front, (copyName base index).toList.splitOn '/' = front ++ [copyFile base index] ∧
      isVoid (copyFile base index) = false ∧ copyFile base index ≠ ['.', '.'] ∧
      (front.filter fun s => !isVoid s) = (solid base.toList).dropLast ∧
      Disk.start (copyName base index) = Disk.start base := by
  obtain ⟨front, name, hsplit, named, down⟩ := leads.file
  have file := fileName?_eq_some hsplit named down
  by_cases live : index = 0
  · have text : copyName base index = base := if_pos live
    have last : copyFile base index = name := by
      unfold copyFile copyMark
      rw [if_pos live]
      exact markedFile_nil file
    rw [text, last]
    exact ⟨front, hsplit, named, down, (dropLast_solid hsplit named).symm, rfl⟩
  · have text : copyName base index = marked base (copyMark index) := by
      unfold copyName copyMark
      rw [if_neg live, if_neg live]
    obtain ⟨front', hsplit', names, start⟩ := splitOn_marked file (copyMark_slashFree index)
    obtain ⟨c, mem, hc⟩ := exists_mem_copyMark live
    have inFile : c ∈ markedFile base (copyMark index) :=
      List.mem_append_left _ (List.mem_append_right _ mem)
    obtain ⟨named', down'⟩ := named_of_mem inFile hc
    rw [text]
    exact ⟨front', hsplit', named', down', names, start⟩

/-- The copies of a log file are in its directory. -/
theorem locate_copyName {d : Disk} {dir : Place} (leads : Leads d base dir) (index : Nat) :
    d.locate (copyName base index) =
      Disk.inDirectory dir (copyName base index) (copyFile base index) := by
  obtain ⟨front, hsplit, named, down, names, start⟩ := splitOn_copyName leads index
  apply Disk.locate_eq_inDirectory hsplit named down _ leads.isOpen.at?
  rw [names, start]
  exact leads.way

/-- The name of a copy does not end in a slash. -/
theorem endsWithSlash_copyName {d : Disk} {dir : Place} (leads : Leads d base dir)
    (index : Nat) : Disk.endsWithSlash (copyName base index) = false := by
  obtain ⟨front, hsplit, named, -, -, -⟩ := splitOn_copyName leads index
  exact Disk.endsWithSlash_eq_false hsplit named

end LogTopology.LogFile
