import LogTopology.Proofs.Disk.Trees
import LogTopology.Proofs.LogFile.InUse
/-!
# Moving copies that may be directories

The copies of a log file may be anything that was put where they go. Moving them up by one number
works on whole trees: a directory comes along with all that is in it (`Lifted`). The copies that a
disk can name are those up to some number, since names get longer with their numbers
(`Named.of_succ`), so no copy is met above the first one that has no name.

Once the first turn of the loop is over the target of every move is free: the turn before has moved
it away (`target_free`).

The loop is told by its turns. `Turn` relates the disk at the start to the disk at some number,
`Grounds` is what every turn needs and keeps, and `Lifted` is what the turns so far have come to,
place by place. Below a free place that has a name all copies move (`lifted_of_free`), and below a
copy that is missing they do as well (`lifted_of_gone`).

A path may pass through one of its own copies, by way of two dots, and lead elsewhere once that copy
has moved. `Clear` excludes this.
-/

namespace LogTopology.LogFile

open PathText (solid)
open Rotating

variable {d d' : Disk} {base : String} {dir : Place} {i j n : Nat}

/-! ## Names that a disk takes -/

/-- A copy has a name that a disk takes. -/
def Named (dir : Place) (base : String) (index : Nat) : Prop :=
  Disk.inDirectory dir (copyName base index) (copyFile base index) = .ok (copyPlace dir base index)

/-- The disk takes a path without a zero character, of at most 4095 bytes and with at most 255 bytes
behind its last slash. -/
theorem named_iff : Named dir base i ↔ '\x00' ∉ (copyName base i).toList ∧
    (copyName base i).utf8ByteSize ≤ 4095 ∧
    (String.ofList (copyFile base i)).utf8ByteSize ≤ 255 := by
  rw [Named, Disk.inDirectory]
  by_cases clean : '\x00' ∈ (copyName base i).toList
  · rw [if_pos clean]
    exact iff_of_false nofun fun fits => fits.1 clean
  by_cases long : 4095 < (copyName base i).utf8ByteSize
  · rw [if_neg clean, if_pos long]
    exact iff_of_false nofun fun fits => absurd fits.2.1 (Nat.not_le.mpr long)
  by_cases longFile : 255 < (String.ofList (copyFile base i)).utf8ByteSize
  · rw [if_neg clean, if_neg long, if_pos longFile]
    exact iff_of_false nofun fun fits => absurd fits.2.2 (Nat.not_le.mpr longFile)
  · rw [if_neg clean, if_neg long, if_neg longFile]
    exact iff_of_true rfl ⟨clean, Nat.not_lt.mp long, Nat.not_lt.mp longFile⟩

/-- A text of characters of one byte each. -/
theorem utf8ByteSize_of_single {cs : List Char} (single : ∀ c ∈ cs, c.utf8Size = 1) :
    (String.ofList cs).utf8ByteSize = cs.length := by
  induction cs with
  | nil => rfl
  | cons c cs ih =>
    have rest := ih fun c mem => single c (List.mem_cons_of_mem _ mem)
    rw [← List.singleton_append, String.ofList_append, String.utf8ByteSize_append, rest,
      ← String.singleton_eq_ofList, String.utf8ByteSize_singleton, single c List.mem_cons_self,
      List.length_append]
    rfl

/-- A digit takes up one byte. -/
theorem utf8ByteSize_toDigits (i : Nat) :
    (String.ofList (Nat.toDigits 10 i)).utf8ByteSize = (Nat.toDigits 10 i).length := by
  refine utf8ByteSize_of_single fun c mem => ?_
  have digit := Nat.isDigit_of_mem_toDigits (by decide) (by decide) mem
  rw [Char.isDigit, Bool.and_eq_true, decide_eq_true_eq, decide_eq_true_eq] at digit
  exact Char.utf8Size_eq_one_iff.mpr (UInt32.le_trans digit.2 (by decide))

/-- A number is written no shorter than the one before it. -/
theorem length_toDigits_le_succ (i : Nat) :
    (Nat.toDigits 10 i).length ≤ (Nat.toDigits 10 (i + 1)).length := by
  have some : 0 < (Nat.toDigits 10 (i + 1)).length :=
    List.length_pos_of_ne_nil Nat.toDigits_ne_nil
  have bound := (Nat.length_toDigits_le_iff (by decide) some).mp (Nat.le_refl _)
  exact (Nat.length_toDigits_le_iff (by decide) some).mpr (by omega)

/-- The next number takes up at least as many bytes. -/
theorem utf8ByteSize_around_le (front back : List Char) (i : Nat) :
    (String.ofList (front ++ (Nat.toDigits 10 i ++ back))).utf8ByteSize ≤
      (String.ofList (front ++ (Nat.toDigits 10 (i + 1) ++ back))).utf8ByteSize := by
  have longer := length_toDigits_le_succ i
  simp only [String.ofList_append, String.utf8ByteSize_append, utf8ByteSize_toDigits]
  omega

/-- A path whose file name is replaced keeps what stands before it. -/
theorem exists_withFileName (path : String) :
    ∃ front, ∀ name, (PathText.withFileName path name).toList = front ++ name := by
  have child (directory : List Char) :
      ∃ front, ∀ name, (PathText.child directory name).toList = front ++ name := by
    simp only [PathText.child, String.toList_ofList]
    split
    · exact ⟨directory, fun name => rfl⟩
    · refine ⟨directory ++ ['/'], fun name => ?_⟩
      rw [List.append_assoc]
      rfl
  unfold PathText.withFileName
  split
  · exact child _
  · exact child _

/-- The path and the file name of a copy have its number between parts that are the same for all
copies. -/
theorem exists_around (base : String) :
    ∃ path front back, ∀ i, i ≠ 0 →
      (copyName base i).toList = path ++ (Nat.toDigits 10 i ++ back) ∧
      copyFile base i = front ++ (Nat.toDigits 10 i ++ back) := by
  obtain ⟨before, whole⟩ := exists_withFileName base
  refine ⟨before ++ (PathText.stem base ++ ['.']), PathText.stem base ++ ['.'],
    (PathText.extension? base).elim [] ('.' :: ·), fun i copy => ⟨?_, ?_⟩⟩
  · rw [copyName, if_neg copy, marked, whole]
    simp only [List.append_assoc, List.cons_append, List.nil_append]
  · rw [copyFile, markedFile, copyMark, if_neg copy]
    simp only [List.append_assoc, List.cons_append, List.nil_append]

/-- Where a copy has a name the one before it has a name. -/
theorem Named.of_succ (copy : i ≠ 0) (named : Named dir base (i + 1)) : Named dir base i := by
  obtain ⟨path, front, back, around⟩ := exists_around base
  obtain ⟨pathHere, fileHere⟩ := around i copy
  obtain ⟨pathNext, fileNext⟩ := around (i + 1) (by omega)
  have text {index : Nat} {cs : List Char} (same : (copyName base index).toList = cs) :
      copyName base index = String.ofList cs := by
    rw [← same, String.ofList_toList]
  obtain ⟨clean, short, shortFile⟩ := named_iff.mp named
  refine named_iff.mpr ⟨?_, ?_, ?_⟩
  · rw [pathNext, List.mem_append, List.mem_append, not_or, not_or] at clean
    rw [pathHere, List.mem_append, List.mem_append, not_or, not_or]
    refine ⟨clean.1, fun digit => ?_, clean.2.2⟩
    have isDigit := Nat.isDigit_of_mem_toDigits (by decide) (by decide) digit
    cases isDigit
  · rw [text pathNext] at short
    rw [text pathHere]
    exact (utf8ByteSize_around_le path back i).trans short
  · rw [fileNext] at shortFile
    rw [fileHere]
    exact (utf8ByteSize_around_le front back i).trans shortFile

/-! ## The files of a log -/

/-- The files of a log on a disk that is in order, whatever its copies are. -/
structure Grounds (base : String) (dir : Place) (d : Disk) : Prop where
  leads : Leads d base dir
  sound : d.Sound
  rooted : d.Rooted

/-- The places that the path of a log file leads through, the directory of the log being the
last. -/
def way (base : String) : List Place :=
  Disk.along (Disk.start base) ((solid base.toList).dropLast.map String.ofList)

/-- The path of a log file does not lead through one of its copies. -/
def Clear (base : String) (index : Nat) : Prop :=
  ∀ q ∈ way base, ¬copyPlace ((way base).getLast?.getD []) base index <+: q

instance (base : String) (index : Nat) : Decidable (Clear base index) :=
  inferInstanceAs (Decidable (∀ q ∈ way base, _))

/-- A path that never leads upwards leads through no copy. -/
theorem clear_of_down (down : ['.', '.'] ∉ solid base.toList) (index : Nat) : Clear base index := by
  have noUp : ".." ∉ (solid base.toList).dropLast.map String.ofList := by
    intro mem
    obtain ⟨name, mem, same⟩ := List.mem_map.mp mem
    rw [show ".." = String.ofList ['.', '.'] from rfl] at same
    rw [String.ofList_injective same] at mem
    exact down (List.dropLast_subset _ mem)
  obtain ⟨last, same⟩ : ∃ last, (way base).getLast? = some last :=
    Option.ne_none_iff_exists'.mp (mt List.getLast?_eq_none_iff.mp Disk.along_ne_nil)
  intro q mem below
  rw [same, Option.getD_some] at below
  have short := (below.trans (Disk.prefix_of_mem_along noUp same q mem)).length_le
  rw [copyPlace, List.length_append, List.length_singleton] at short
  omega

/-- Nothing in one copy is in another one. -/
theorem not_below_append (h : i ≠ j) (rest : Place) :
    ¬copyPlace dir base i <+: copyPlace dir base j ++ rest := by
  intro below
  refine not_below h (List.prefix_of_prefix_length_le below (List.prefix_append _ rest) ?_)
  rw [copyPlace, copyPlace, List.length_append, List.length_append]
  exact Nat.le_refl _

/-- A copy lies in the directory of the log and nowhere else. -/
theorem eq_dir_of_copyPlace {q : Place} {name : String} (h : copyPlace dir base i = q ++ [name]) :
    q = dir :=
  (List.append_inj' h rfl).1.symm

namespace Grounds

/-- The name of a copy leads to its place, if the disk takes it. -/
theorem locate_eq (grounds : Grounds base dir d) (named : Named dir base i) :
    d.locate (copyName base i) = .ok (copyPlace dir base i) :=
  (locate_copyName grounds.leads i).trans named

/-- A name of a copy that leads somewhere is one that the disk takes, and leads to its place. -/
theorem named_of_locate (grounds : Grounds base dir d) {p : Place}
    (located : d.locate (copyName base i) = .ok p) :
    Named dir base i ∧ p = copyPlace dir base i := by
  obtain rfl := eq_copyPlace_of_locate grounds.leads located
  exact ⟨(locate_copyName grounds.leads i).symm.trans located, rfl⟩

/-- A copy is there if it has a name and something is at its place. -/
theorem pathExists_iff (grounds : Grounds base dir d) :
    d.pathExists (copyName base i) = true ↔
      Named dir base i ∧ d.at? (copyPlace dir base i) ≠ none := by
  rw [Disk.pathExists_eq (endsWithSlash_copyName grounds.leads i), Option.isSome_iff_ne_none]
  constructor
  · intro present
    obtain ⟨item, here⟩ := Option.ne_none_iff_exists'.mp present
    obtain ⟨p, located, here⟩ := Disk.exists_place_of_item? here
    obtain ⟨named, rfl⟩ := grounds.named_of_locate located
    exact ⟨named, by rw [here]; exact Option.some_ne_none item⟩
  · rintro ⟨named, present⟩
    rwa [Disk.item?_of_locate (grounds.locate_eq named)]

/-- A copy is missing when its name is not taken or its place is empty. -/
theorem not_pathExists_iff (grounds : Grounds base dir d) :
    d.pathExists (copyName base i) = false ↔
      ¬(Named dir base i ∧ d.at? (copyPlace dir base i) ≠ none) := by
  rw [← grounds.pathExists_iff, Bool.not_eq_true]

/-- The directory of a log leads to its copies. -/
theorem parent (grounds : Grounds base dir d) {q : Place} {name : String}
    (h : copyPlace dir base i = q ++ [name]) : d.at? q = some .directory := by
  rw [eq_dir_of_copyPlace h]
  exact grounds.leads.isOpen.at?

/-- Every place on the way to the files of a log can be gone through. -/
theorem open_way (grounds : Grounds base dir d) : ∀ q ∈ way base, d.Open q :=
  Disk.open_of_mem_along (Disk.reached_start base) grounds.leads.way grounds.leads.isOpen

/-- The way leads to the directory. -/
theorem clear_iff (grounds : Grounds base dir d) :
    Clear base i ↔ ∀ q ∈ way base, ¬copyPlace dir base i <+: q := by
  have last : (way base).getLast? = some dir := Disk.getLast?_along grounds.leads.way
  rw [Clear, last, Option.getD_some]

/-- What is no directory is not on the way to the files of a log. -/
theorem clear (grounds : Grounds base dir d)
    (other : d.at? (copyPlace dir base i) ≠ some .directory) : Clear base i :=
  grounds.clear_iff.mpr fun q mem below => other (grounds.open_way q mem _ below)

/-- The names of copies lead to no place that is above all. -/
theorem down (grounds : Grounds base dir d) (i : Nat) :
    (copyPlace dir base i).all (· = "..") = false := by
  obtain ⟨-, -, -, notUp, -, -⟩ := splitOn_copyName grounds.leads i
  have name : String.ofList (copyFile base i) ≠ ".." := fun same =>
    notUp (String.ofList_injective same)
  rw [copyPlace, List.all_append]
  simp [name]

/-- The files of a log stay where they are found when a copy moves that they are not behind. -/
theorem of_moves (grounds : Grounds base dir d) (clear : Clear base i)
    (other : d.at? (copyPlace dir base j) ≠ some .directory)
    (moves : d.MovesTree d' (copyPlace dir base i) (copyPlace dir base j))
    (contents : d'.contents = d.contents) : Grounds base dir d' := by
  have stays : ∀ r ∈ way base, d'.Open r := by
    intro r mem q below
    have isOpen := grounds.open_way r mem
    rw [moves.outside q, isOpen q below]
    · exact fun inside => grounds.clear_iff.mp clear r mem (inside.trans below)
    · exact fun inside => other (isOpen _ (inside.trans below))
  have isOpen := stays dir
    (List.mem_of_getLast? (Disk.getLast?_along grounds.leads.way))
  refine ⟨⟨grounds.leads.file, ?_, isOpen⟩, moves.sound contents grounds.sound, ?_⟩
  · exact Disk.follow_of_along grounds.leads.way fun r mem _ => (stays r mem).at?
  · refine moves.rooted grounds.rooted fun q name same => ?_
    rw [eq_dir_of_copyPlace same]
    exact isOpen.at?

end Grounds

/-! ## One turn -/

/-- A copy that is there cannot move to a name that the disk does not take. -/
theorem shift_of_unnamed {e : FileError} (grounds : Grounds base dir d)
    (present : d.pathExists (copyName base i) = true)
    (refused : d.locate (copyName base (i + 1)) = .error e) : shift base i d = (some e, d) := by
  have free : d.pathExists (copyName base (i + 1)) = false := by
    rw [Disk.pathExists, refused]
  have located := grounds.locate_eq (grounds.pathExists_iff.mp present).1
  have unmoved : d.rename (copyName base i) (copyName base (i + 1)) = .error e := by
    rw [Disk.rename, located, refused]
    rfl
  simp only [shift, present, if_true, free, Bool.false_eq_true, if_false, unmoved]

/-- A copy that is there does not replace a directory. -/
theorem shift_of_directory (present : d.pathExists (copyName base i) = true)
    (directory : d.pathIsDirectory (copyName base (i + 1)) = true)
    (noSlash : Disk.endsWithSlash (copyName base (i + 1)) = false) :
    shift base i d = (some .isDirectory, d) := by
  cases located : d.locate (copyName base (i + 1)) with
  | error e =>
    rw [Disk.pathIsDirectory, located] at directory
    cases directory
  | ok p =>
    rw [Disk.pathIsDirectory, located] at directory
    have here : d.at? p = some .directory := of_decide_eq_true directory
    have taken : d.pathExists (copyName base (i + 1)) = true := by
      rw [Disk.pathExists, located]
      simp only [here, noSlash, Option.isSome_some, Bool.not_false, Bool.true_or, Bool.and_self]
    have stays : d.removeFile (copyName base (i + 1)) = .error .isDirectory := by
      simp only [Disk.removeFile, located, bind, Except.bind, here]
      rfl
    simp only [shift, present, taken, if_true, stays]

/-- A copy that moves takes all that is in it along, to a place that is free or holds something
else than a directory. -/
theorem moves_of_shift (grounds : Grounds base dir d)
    (present : d.pathExists (copyName base i) = true) (h : shift base i d = (none, d')) :
    d.MovesTree d' (copyPlace dir base i) (copyPlace dir base (i + 1)) ∧
      d'.contents = d.contents ∧ d.at? (copyPlace dir base (i + 1)) ≠ some .directory := by
  have there : d.item? (copyName base i) ≠ none := by
    rw [Disk.pathExists_eq (endsWithSlash_copyName grounds.leads i)] at present
    exact Option.isSome_iff_ne_none.mp present
  obtain ⟨room, hroom, hrename⟩ := shift_steps grounds.leads there h
  obtain ⟨s, t, item, atSource, atTarget, -, hd'⟩ := Disk.rename_eq_ok hrename
  obtain ⟨rfl, puts, contents, keeps⟩ := puts_none_of_room grounds.leads hroom atTarget
  obtain rfl := eq_copyPlace_of_locate (grounds.leads.of_keeps keeps) atSource
  have emptied : room.at? (copyPlace dir base (i + 1)) = none := by
    rw [puts, if_pos rfl]
  have other : d.at? (copyPlace dir base (i + 1)) ≠ some .directory := by
    intro directory
    have isOpen : d.Open (copyPlace dir base (i + 1)) := by
      intro q below
      rcases List.prefix_concat_iff.mp below with rfl | above
      · exact directory
      · exact grounds.leads.isOpen q above
    rw [(keeps _ isOpen).at?] at emptied
    cases emptied
  have rooted : room.Rooted := grounds.rooted.of_puts puts other fun _ _ => grounds.parent
  have apart : i ≠ i + 1 := by omega
  have moves := Disk.movesTree_of_items (grounds.down i) (rooted.nothing_of_none emptied)
    (not_below apart.symm) (not_below apart) (congrArg Disk.items hd')
  refine ⟨moves.of_room puts (not_below apart), ?_, other⟩
  rw [hd', ← contents]

/-- A copy can move to a name that the disk takes when there is no directory. -/
theorem exists_shift (grounds : Grounds base dir d) (named : Named dir base (i + 1))
    (other : d.at? (copyPlace dir base (i + 1)) ≠ some .directory) :
    ∃ d', shift base i d = (none, d') := by
  cases present : d.pathExists (copyName base i) with
  | false => exact ⟨d, by simp only [shift, present, Bool.false_eq_true, if_false]⟩
  | true =>
  obtain ⟨namedSource, there⟩ := grounds.pathExists_iff.mp present
  -- Room is made for the copy: a file in its new place is removed.
  obtain ⟨room, hroom, keeps, same⟩ : ∃ room,
      (if d.pathExists (copyName base (i + 1)) then d.removeFile (copyName base (i + 1))
        else .ok d) = .ok room ∧ Disk.Keeps d room ∧
      room.at? (copyPlace dir base i) = d.at? (copyPlace dir base i) := by
    cases taken : d.pathExists (copyName base (i + 1)) with
    | false => exact ⟨d, if_neg Bool.false_ne_true, fun _ way => way, rfl⟩
    | true =>
      obtain ⟨room, removed⟩ := Disk.exists_removeFile (grounds.locate_eq named)
        (grounds.pathExists_iff.mp taken).2 other
      obtain ⟨p, located, file, puts, -⟩ := Disk.removeFile_eq_ok removed
      obtain rfl := (grounds.named_of_locate located).2
      refine ⟨room, (if_pos rfl).trans removed, puts.keeps file, ?_⟩
      rw [puts, if_neg fun same => absurd (copyPlace_injective same) (by omega)]
  have leads := grounds.leads.of_keeps keeps
  have source : room.locate (copyName base i) = .ok (copyPlace dir base i) :=
    (locate_copyName leads i).trans namedSource
  have target : room.locate (copyName base (i + 1)) = .ok (copyPlace dir base (i + 1)) :=
    (locate_copyName leads (i + 1)).trans named
  obtain ⟨item, here⟩ := Option.ne_none_iff_exists'.mp there
  rw [← same] at here
  have renamed : ∃ d', room.rename (copyName base i) (copyName base (i + 1)) = .ok d' := by
    simp only [Disk.rename, source, target, bind, Except.bind, here]
    exact ⟨_, rfl⟩
  obtain ⟨d', renamed⟩ := renamed
  exact ⟨d', by simp only [shift, present, if_true, hroom, renamed]⟩

/-- A turn of the loop leaves nothing where the copy was. -/
theorem gone_of_shift (grounds : Grounds base dir d) (clear : Clear base i)
    (h : shift base i d = (none, d')) :
    Grounds base dir d' ∧ d'.pathExists (copyName base i) = false := by
  cases present : d.pathExists (copyName base i) with
  | false =>
    simp only [shift, present, Bool.false_eq_true, if_false] at h
    cases h
    exact ⟨grounds, present⟩
  | true =>
    obtain ⟨moves, contents, other⟩ := moves_of_shift grounds present h
    have grounds' := grounds.of_moves clear other moves contents
    refine ⟨grounds', grounds'.not_pathExists_iff.mpr fun there => there.2 ?_⟩
    rw [← List.append_nil (copyPlace dir base i), moves.source]

/-! ## The loop -/

/-- The loop over the copies with numbers below `n`, begun on a disk, has come to those below a
number, on another disk. -/
inductive Turn (base : String) (n : Nat) (d : Disk) : Nat → Disk → Prop where
  | start : Turn base n d n d
  | next {index : Nat} {before after : Disk} (turn : Turn base n d (index + 1) before)
      (moved : shift base index before = (none, after)) : Turn base n d index after

/-- What is left to do at a turn is what the loop does. -/
theorem Turn.rest {k : Nat} (turn : Turn base n d k d') :
    shiftBelow base n d = shiftBelow base k d' := by
  induction turn with
  | start => rfl
  | next turn moved ih => rw [ih, shiftBelow, moved]

/-- The numbers go down from turn to turn. -/
theorem Turn.le {k : Nat} (turn : Turn base n d k d') : k ≤ n := by
  induction turn with
  | start => exact Nat.le_refl _
  | next turn moved ih => omega

/-- What the copies need is there at every turn, since no move is in the way of the log's own path.
-/
theorem Turn.grounds {k : Nat} (turn : Turn base n d k d') (grounds : Grounds base dir d)
    (clear : ∀ j, j < n → Clear base j) : Grounds base dir d' := by
  induction turn with
  | start => exact grounds
  | next turn moved ih => exact (gone_of_shift ih (clear _ turn.le) moved).1

/-- Only in its first turn may the loop find something where it moves a copy to. -/
theorem Turn.target_free {k : Nat} (turn : Turn base n d (k + 1) d') (grounds : Grounds base dir d)
    (clear : ∀ j, j < n → Clear base j)
    (taken : d'.pathExists (copyName base (k + 1)) = true) : k + 1 = n ∧ d' = d := by
  cases turn with
  | start => exact ⟨rfl, rfl⟩
  | next turn moved =>
    have gone := (gone_of_shift (turn.grounds grounds clear) (clear _ turn.le) moved).2
    rw [taken] at gone
    cases gone

/-- The copies with numbers below `n` have moved up by one, with all that is in them; everything
else is as it was. -/
structure Lifted (dir : Place) (base : String) (n : Nat) (before after : Disk) : Prop where
  copies : ∀ j, j < n →
    before.SameTree (copyPlace dir base j) after (copyPlace dir base (j + 1))
  first : ∀ rest, after.at? (copyPlace dir base 0 ++ rest) = none
  outside : ∀ q, (∀ j, j ≤ n → ¬copyPlace dir base j <+: q) → after.at? q = before.at? q
  contents : after.contents = before.contents
  grounds : Grounds base dir after

/-- Before anything has moved, the copies below 0 have. -/
theorem lifted_zero (grounds : Grounds base dir d) (free : d.at? (copyPlace dir base 0) = none) :
    Lifted dir base 0 d d :=
  ⟨nofun, grounds.rooted.nothing_of_none free, fun _ _ => rfl, rfl, grounds⟩

namespace Lifted

/-- What is not moved by the loop. -/
theorem above (lifted : Lifted dir base n d d') (h : n < j) :
    d.SameTree (copyPlace dir base j) d' (copyPlace dir base j) :=
  fun rest => lifted.outside _ fun _ bound => not_below_append (by omega) rest

/-- Where there is no copy, there is none that moves. -/
theorem succ_of_none (lifted : Lifted dir base n d d') (rooted : d.Rooted)
    (none : d.at? (copyPlace dir base n) = none)
    (free : d.at? (copyPlace dir base (n + 1)) = .none) : Lifted dir base (n + 1) d d' := by
  refine ⟨fun j bound => ?_, lifted.first, fun q out => ?_, lifted.contents, lifted.grounds⟩
  · rcases Nat.lt_succ_iff_lt_or_eq.mp bound with below | rfl
    · exact lifted.copies j below
    · intro rest
      rw [lifted.above (Nat.lt_succ_self j), rooted.nothing_of_none free,
        rooted.nothing_of_none none]
  · exact lifted.outside q fun j bound => out j (by omega)

/-- A copy that moves makes room for the ones below it. -/
theorem succ_of_moves {room : Disk}
    (moves : d.MovesTree room (copyPlace dir base n) (copyPlace dir base (n + 1)))
    (contents : room.contents = d.contents) (lifted : Lifted dir base n room d') :
    Lifted dir base (n + 1) d d' := by
  refine ⟨fun j bound => ?_, lifted.first, fun q out => ?_, lifted.contents.trans contents,
    lifted.grounds⟩
  · rcases Nat.lt_succ_iff_lt_or_eq.mp bound with below | rfl
    · intro rest
      rw [lifted.copies j below rest]
      exact moves.outside _ (not_below_append (by omega) rest) (not_below_append (by omega) rest)
    · intro rest
      rw [lifted.above (Nat.lt_succ_self j), moves.target]
  · rw [lifted.outside q fun j bound => out j (by omega)]
    exact moves.outside q (out n (by omega)) (out (n + 1) (Nat.le_refl _))

end Lifted

/-- A turn for a copy that is missing does nothing. -/
theorem shift_of_gone (gone : d.pathExists (copyName base i) = false) :
    shift base i d = (none, d) := by
  simp only [shift, gone, Bool.false_eq_true, if_false]

/-- One turn for a copy that is there and has somewhere to go. -/
theorem exists_moves (grounds : Grounds base dir d) (clear : Clear base i)
    (present : d.pathExists (copyName base i) = true) (named : Named dir base (i + 1))
    (other : d.at? (copyPlace dir base (i + 1)) ≠ some .directory) :
    ∃ room, shift base i d = (none, room) ∧
      d.MovesTree room (copyPlace dir base i) (copyPlace dir base (i + 1)) ∧
      room.contents = d.contents ∧ Grounds base dir room := by
  obtain ⟨room, shifted⟩ := exists_shift grounds named other
  obtain ⟨moves, contents, -⟩ := moves_of_shift grounds present shifted
  exact ⟨room, shifted, moves, contents, grounds.of_moves clear other moves contents⟩

/-- Below a free place with a name, all copies move. -/
theorem lifted_of_free (grounds : Grounds base dir d) (clear : ∀ j, j < n → Clear base j)
    (named : ∀ j, j ≤ n → Named dir base j) (free : d.at? (copyPlace dir base n) = none) :
    ∃ d', shiftBelow base n d = (none, d') ∧ Lifted dir base n d d' := by
  induction n generalizing d with
  | zero => exact ⟨d, rfl, lifted_zero grounds free⟩
  | succ n ih =>
    have clear' (j : Nat) (bound : j < n) := clear j (by omega)
    have named' (j : Nat) (bound : j ≤ n) := named j (by omega)
    rw [shiftBelow]
    by_cases none : d.at? (copyPlace dir base n) = none
    · have gone : d.pathExists (copyName base n) = false :=
        grounds.not_pathExists_iff.mpr fun there => there.2 none
      obtain ⟨d', loop, lifted⟩ := ih grounds clear' named' none
      rw [shift_of_gone gone]
      exact ⟨d', loop, lifted.succ_of_none grounds.rooted none free⟩
    · have present : d.pathExists (copyName base n) = true :=
        grounds.pathExists_iff.mpr ⟨named' n (Nat.le_refl _), none⟩
      obtain ⟨room, shifted, moves, contents, grounds'⟩ := exists_moves grounds
        (clear n (Nat.lt_succ_self n)) present (named _ (Nat.le_refl _)) (by rw [free]; exact nofun)
      have freed : room.at? (copyPlace dir base n) = .none := by
        rw [← List.append_nil (copyPlace dir base n), moves.source]
      obtain ⟨d', loop, lifted⟩ := ih grounds' clear' named' freed
      rw [shifted]
      exact ⟨d', loop, lifted.succ_of_moves moves contents⟩

/-- Names get longer with their numbers, so below a name that the disk takes all are taken. -/
theorem named_of_le (live : Named dir base 0) (named : Named dir base n) :
    ∀ j, j ≤ n → Named dir base j := by
  induction n with
  | zero =>
    intro j bound
    rw [Nat.le_zero.mp bound]
    exact live
  | succ n ih =>
    intro j bound
    by_cases last : j = n + 1
    · rw [last]
      exact named
    by_cases first : n = 0
    · rw [show j = 0 by omega]
      exact live
    · exact ih (named.of_succ first) j (by omega)

/-- Below a copy that is not there all copies move, as long as there is a name for each. Numbers
from some `k` on have no copy. -/
theorem lifted_of_gone (grounds : Grounds base dir d) (clear : ∀ j, j < n → Clear base j)
    (live : Named dir base 0)
    (named : ∀ j, j < n → d.pathExists (copyName base j) = true → Named dir base (j + 1))
    (gone : d.pathExists (copyName base n) = false) :
    ∃ k d', k ≤ n ∧ shiftBelow base n d = (none, d') ∧ Lifted dir base k d d' ∧
      ∀ j, k ≤ j → j ≤ n → d.pathExists (copyName base j) = false := by
  induction n with
  | zero =>
    have free : d.at? (copyPlace dir base 0) = none := by
      by_contra present
      exact grounds.not_pathExists_iff.mp gone ⟨live, present⟩
    refine ⟨0, d, Nat.le_refl _, rfl, lifted_zero grounds free, fun j _ bound => ?_⟩
    rw [Nat.le_zero.mp bound]
    exact gone
  | succ n ih =>
    by_cases last : Named dir base (n + 1)
    · have free : d.at? (copyPlace dir base (n + 1)) = none := by
        by_contra present
        exact grounds.not_pathExists_iff.mp gone ⟨last, present⟩
      obtain ⟨d', loop, lifted⟩ := lifted_of_free grounds clear (named_of_le live last) free
      refine ⟨n + 1, d', Nat.le_refl _, loop, lifted, fun j low high => ?_⟩
      rw [show j = n + 1 by omega]
      exact gone
    · -- If the last copy cannot have its name, then the one below it, which would get it, is not
      -- there.
      have below : d.pathExists (copyName base n) = false := by
        rw [← Bool.not_eq_true]
        exact fun present => last (named n (Nat.lt_succ_self n) present)
      obtain ⟨k, d', bound, loop, lifted, none⟩ := ih (fun j bound => clear j (by omega))
        (fun j bound => named j (by omega)) below
      rw [shiftBelow, shift_of_gone below]
      refine ⟨k, d', by omega, loop, lifted, fun j low high => ?_⟩
      by_cases top : j = n + 1
      · rw [top]
        exact gone
      · exact none j low (by omega)

end LogTopology.LogFile
