import LogTopology.PathText
import Mathlib.Data.List.DropRight
/-!
# What a path names

The segments of a path that name something (`solid`) decide where it leads, together with the slash
that it may start with. Taking the directory of a path and putting another file name into it keeps
both, whatever empty segments and dots stand in between: `solid_eq_of_fileName?` and
`splitOn_child`. The new path has the very directory that the name was put into: `parent?_child`.

The directory of a path is computed from its text. The start of the path is split off, which is a
slash, a dot or nothing (`splitLead_fst_cases`), the rest is cut at the slashes, segments that name
nothing are dropped at the end, and what is left without its last segment is joined again
(`parent?_eq`). The laws follow these steps: each says what a step does to the segments, and then
the segments of the result are those of the path, up to the ones that name nothing.

Two dots are a segment like any other here and are not resolved. What is at a path, and whether
anything is there, depends on a disk and is told with the places of disks.
-/

namespace LogTopology.PathText

/-- The segments of a path that name something. -/
def solid (cs : List Char) : List (List Char) :=
  (cs.splitOn '/').filter fun s => !isVoid s

/-! ## Segments -/

/-- No segment of a path contains a slash. -/
theorem not_mem_of_mem_splitOn {cs s : List Char} (h : s ∈ cs.splitOn '/') : '/' ∉ s := by
  induction cs generalizing s with
  | nil =>
    rw [List.splitOn_nil, List.mem_singleton] at h
    rw [h]
    exact List.not_mem_nil
  | cons c cs ih =>
    rw [List.splitOn_cons_eq_if_modifyHead] at h
    split at h
    · rcases List.mem_cons.mp h with rfl | h
      · exact List.not_mem_nil
      · exact ih h
    · rename_i hc
      cases pieces : cs.splitOn '/' with
      | nil => exact absurd pieces (List.splitOn_ne_nil '/' cs)
      | cons first rest =>
        rw [pieces] at h ih
        rcases List.mem_cons.mp h with rfl | h
        · intro mem
          rcases List.mem_cons.mp mem with rfl | mem
          · exact hc (beq_self_eq_true '/')
          · exact ih List.mem_cons_self mem
        · exact ih (List.mem_cons_of_mem first h)

/-- Joining two lists of segments, neither of them empty, puts one separator between what they give.
-/
theorem intercalate_append {α : Type} (sep : List α) {front back : List (List α)}
    (hf : front ≠ []) (hb : back ≠ []) :
    sep.intercalate (front ++ back) = sep.intercalate front ++ (sep ++ sep.intercalate back) := by
  induction front with
  | nil => exact absurd rfl hf
  | cons s rest ih =>
    cases rest with
    | nil =>
      rw [List.singleton_append, List.intercalate_cons_of_ne_nil hb, List.intercalate_singleton,
        List.append_assoc]
    | cons t rest =>
      have rest' : t :: rest ≠ [] := List.cons_ne_nil t rest
      rw [List.cons_append, List.intercalate_cons_of_ne_nil (List.append_ne_nil_of_left_ne_nil rest' _),
        List.intercalate_cons_of_ne_nil rest', ih rest']
      simp only [List.append_assoc]

/-- The segments that name something are those in front of a slash and those behind it. -/
theorem solid_append_slash (front back : List Char) :
    solid (front ++ '/' :: back) = solid front ++ solid back := by
  unfold solid
  rw [List.splitOn_append_cons_self, List.filter_append]

/-- A slash at the start names nothing. -/
theorem solid_slash_cons (cs : List Char) : solid ('/' :: cs) = solid cs :=
  solid_append_slash [] cs

/-- What the segments of a joined text name is what the joined segments name. -/
theorem solid_intercalate {segments : List (List Char)} (h : ∀ s ∈ segments, '/' ∉ s) :
    solid (['/'].intercalate segments) = segments.filter fun s => !isVoid s := by
  cases segments with
  | nil => rfl
  | cons s rest =>
    unfold solid
    rw [List.splitOn_intercalate '/' h (List.cons_ne_nil s rest)]

/-- Of segments that name nothing, none is left. -/
theorem filter_eq_nil_of_void {segments : List (List Char)} (h : ∀ s ∈ segments, isVoid s) :
    (segments.filter fun s => !isVoid s) = [] := by
  rw [List.filter_eq_nil_iff]
  intro s mem
  simp [h s mem]

/-- Only segments that name nothing are dropped at the end. -/
theorem exists_eq_dropVoidEnd_append (segments : List (List Char)) :
    ∃ void, segments = dropVoidEnd segments ++ void ∧ ∀ s ∈ void, isVoid s :=
  ⟨segments.rtakeWhile isVoid, List.rdropWhile_append_rtakeWhile.symm,
    fun _ mem => List.mem_rtakeWhile_imp mem⟩

/-- The last segment that is left when the empty end is dropped names something. -/
theorem not_void_of_getLast?_dropVoidEnd {segments : List (List Char)} {s : List Char}
    (h : (dropVoidEnd segments).getLast? = some s) : isVoid s = false := by
  have rest : dropVoidEnd segments ≠ [] := by
    intro none
    rw [none] at h
    cases h
  have last := List.rdropWhile_last_not isVoid segments rest
  rw [List.getLast?_eq_some_getLast rest, Option.some.injEq] at h
  rw [← h]
  exact eq_false_of_ne_true last

/-- When segments are left after the empty end is dropped, their text is not empty. -/
theorem intercalate_dropVoidEnd_ne_nil {segments : List (List Char)}
    (h : dropVoidEnd segments ≠ []) : ['/'].intercalate (dropVoidEnd segments) ≠ [] := by
  have last := List.rdropWhile_last_not isVoid segments h
  change ¬isVoid ((dropVoidEnd segments).getLast h) = true at last
  generalize dropVoidEnd segments = top at h last ⊢
  cases top with
  | nil => exact absurd rfl h
  | cons s rest =>
    cases rest with
    | nil =>
      intro empty
      rw [List.intercalate_singleton] at empty
      apply last
      rw [List.getLast_singleton, empty]
      rfl
    | cons t rest =>
      rw [List.intercalate_cons_cons]
      simp

/-! ## The start of a path -/

/-- The start of a path and its rest are the path. -/
theorem splitLead_append (cs : List Char) : (splitLead cs).1 ++ (splitLead cs).2 = cs := by
  unfold splitLead
  split <;> rfl

/-- What a path starts with (a slash, a dot or nothing) names nothing. -/
theorem solid_splitLead_fst (cs : List Char) : solid (splitLead cs).1 = [] := by
  unfold splitLead
  split <;> rfl

/-- All segments that name something are behind the start of a path. -/
theorem solid_splitLead_snd (cs : List Char) : solid (splitLead cs).2 = solid cs := by
  unfold splitLead
  split
  · exact (solid_slash_cons _).symm
  · rfl
  · rw [solid_slash_cons]
    exact (solid_append_slash ['.'] _).symm
  · rfl

/-- The root slash of a path is in what the path starts with. -/
theorem head?_splitLead (cs : List Char) :
    (splitLead cs).1.head? = some '/' ↔ cs.head? = some '/' := by
  unfold splitLead
  split
  · simp
  · simp
  · simp
  · rename_i root _ _
    constructor
    · intro h
      cases h
    · intro h
      cases cs with
      | nil => cases h
      | cons c cs =>
        cases h
        exact absurd rfl (root cs)

/-! ## Another file name in the same directory -/

/-- The directory of a path is its start with all segments but the last, less an empty end. -/
theorem parent?_eq {path : String} {front : List (List Char)} {name : List Char}
    (h : segments path.toList = front ++ [name]) :
    parent? path = some (String.ofList
      ((splitLead path.toList).1 ++ ['/'].intercalate (dropVoidEnd front))) := by
  have front_eq : front = (front ++ [name]).dropLast := List.dropLast_concat.symm
  unfold parent?
  rw [h]
  cases front with
  | nil => rfl
  | cons s rest =>
    rw [List.cons_append] at front_eq ⊢
    rw [front_eq]

/-- Where the directory of a path names something, a slash and what names nothing but the file
follow it. -/
theorem exists_eq_append_slash {path : String} {front : List (List Char)} {name : List Char}
    (h : segments path.toList = front ++ [name]) (solidName : isVoid name = false) :
    ∃ back, solid back = [name] ∧ (splitLead path.toList).2 =
      if dropVoidEnd front = [] then back
      else ['/'].intercalate (dropVoidEnd front) ++ '/' :: back := by
  obtain ⟨after, hafter, voidAfter⟩ :=
    exists_eq_dropVoidEnd_append ((splitLead path.toList).2.splitOn '/')
  obtain ⟨between, hbetween, voidBetween⟩ := exists_eq_dropVoidEnd_append front
  generalize dropVoidEnd front = top at hbetween ⊢
  change _ = segments path.toList ++ after at hafter
  rw [h, hbetween, List.append_assoc, List.append_assoc] at hafter
  have slashFree : ∀ s ∈ top ++ (between ++ ([name] ++ after)), '/' ∉ s := by
    intro s mem
    rw [← hafter] at mem
    exact not_mem_of_mem_splitOn mem
  have text : (splitLead path.toList).2 =
      ['/'].intercalate (top ++ (between ++ ([name] ++ after))) := by
    rw [← hafter, List.intercalate_splitOn]
  refine ⟨['/'].intercalate (between ++ ([name] ++ after)), ?_, ?_⟩
  · rw [solid_intercalate fun s mem => slashFree s (List.mem_append_right top mem),
      List.filter_append, List.filter_append, filter_eq_nil_of_void voidBetween,
      filter_eq_nil_of_void voidAfter]
    simp [solidName]
  · rw [text]
    split
    · rename_i none
      rw [none, List.nil_append]
    · rename_i some
      exact intercalate_append ['/'] some (by simp)

/-- A path with a file name has a directory, which names all but the file and starts with a slash
when the path does. -/
theorem solid_eq_of_fileName? {path : String} {name : List Char}
    (h : fileName? path = some name) :
    ∃ directory, parent? path = some directory ∧
      solid path.toList = solid directory.toList ++ [name] ∧
      (directory.toList.head? = some '/' ↔ path.toList.head? = some '/') := by
  obtain ⟨last, -⟩ := Option.filter_eq_some_iff.mp h
  have solidName : isVoid name = false := not_void_of_getLast?_dropVoidEnd last
  obtain ⟨front, hsegments⟩ := List.getLast?_eq_some_iff.mp last
  obtain ⟨back, hback, below⟩ := exists_eq_append_slash hsegments solidName
  refine ⟨_, parent?_eq hsegments, ?_, ?_⟩
  · rw [String.toList_ofList]
    by_cases none : dropVoidEnd front = []
    · rw [if_pos none] at below
      rw [none, List.intercalate_nil, List.append_nil, solid_splitLead_fst, List.nil_append,
        ← solid_splitLead_snd, below, hback]
    · rw [if_neg none] at below
      calc
        solid path.toList = solid ((splitLead path.toList).1 ++ (splitLead path.toList).2) := by
          rw [splitLead_append]
        _ = solid ((splitLead path.toList).1 ++ ['/'].intercalate (dropVoidEnd front) ++
              '/' :: back) := by
          rw [below, List.append_assoc]
        _ = _ := by
          rw [solid_append_slash, hback]
  · rw [String.toList_ofList]
    by_cases none : dropVoidEnd front = []
    · rw [none, List.intercalate_nil, List.append_nil]
      exact head?_splitLead path.toList
    · rw [if_neg none] at below
      have whole : (splitLead path.toList).1 ++ ['/'].intercalate (dropVoidEnd front) ++
          '/' :: back = path.toList := by
        rw [List.append_assoc, ← below, splitLead_append]
      have some : (splitLead path.toList).1 ++ ['/'].intercalate (dropVoidEnd front) ≠ [] :=
        List.append_ne_nil_of_right_ne_nil _ (intercalate_dropVoidEnd_ne_nil none)
      generalize (splitLead path.toList).1 ++ ['/'].intercalate (dropVoidEnd front) = directory
        at whole some ⊢
      rw [← whole, List.head?_append_of_ne_nil _ some]

/-- A name put into a directory is its last segment, after what the directory names. -/
theorem splitOn_child {name : List Char} (directory : List Char) (h : '/' ∉ name) :
    ∃ front, (child directory name).toList.splitOn '/' = front ++ [name] ∧
      (front.filter fun s => !isVoid s) = solid directory := by
  unfold child
  rw [String.toList_ofList]
  by_cases none : directory = []
  · refine ⟨[], ?_, ?_⟩
    · simp only [none, decide_true, Bool.true_or, if_true, List.nil_append]
      exact List.splitOn_eq_singleton h
    · rw [none]
      rfl
  by_cases slash : directory.getLast? = some '/'
  · obtain ⟨front, rfl⟩ := List.getLast?_eq_some_iff.mp slash
    refine ⟨front.splitOn '/', ?_, ?_⟩
    · simp only [slash, decide_true, Bool.or_true, if_true]
      rw [List.append_assoc, List.singleton_append, List.splitOn_append_cons_self,
        List.splitOn_eq_singleton h]
    · exact ((solid_append_slash front []).trans (List.append_nil _)).symm
  · refine ⟨directory.splitOn '/', ?_, rfl⟩
    simp only [none, slash, decide_false, Bool.or_false, Bool.false_eq_true, if_false]
    rw [List.splitOn_append_cons_self, List.splitOn_eq_singleton h]

/-- Putting a file name into a directory keeps the slash at the start, and adds none. -/
theorem head?_child {name : List Char} (directory : List Char) (h : '/' ∉ name) :
    (child directory name).toList.head? = some '/' ↔ directory.head? = some '/' := by
  unfold child
  rw [String.toList_ofList]
  cases directory with
  | nil =>
    constructor
    · intro first
      exact absurd (List.mem_of_head? first) h
    · intro first
      cases first
  | cons c rest =>
    split <;> rfl

/-! ## The directory of another file name -/

/-- What a path starts with is decided before the first slash behind a name. -/
theorem exists_splitLead_append_slash {directory : List Char} (some : directory ≠ []) :
    ∃ lead rest, directory = lead ++ rest ∧
      ∀ back, splitLead (directory ++ '/' :: back) = (lead, rest ++ '/' :: back) := by
  obtain ⟨c, cs, rfl⟩ := List.exists_cons_of_ne_nil some
  by_cases root : c = '/'
  · exact ⟨['/'], cs, by rw [root]; rfl, fun back => by rw [root]; rfl⟩
  by_cases dot : c = '.'
  · subst dot
    cases cs with
    | nil => exact ⟨['.'], [], rfl, fun back => rfl⟩
    | cons d cs =>
      by_cases slash : d = '/'
      · exact ⟨['.'], '/' :: cs, by rw [slash]; rfl, fun back => by rw [slash]; rfl⟩
      · refine ⟨[], _, rfl, fun back => ?_⟩
        unfold splitLead
        split <;> simp_all
  · refine ⟨[], _, rfl, fun back => ?_⟩
    unfold splitLead
    split <;> simp_all

/-- A path starts with a slash, with a dot, or with neither. -/
theorem splitLead_fst_cases (cs : List Char) :
    (splitLead cs).1 = ['/'] ∨ (splitLead cs).1 = ['.'] ∨ (splitLead cs).1 = [] := by
  unfold splitLead
  split
  · exact .inl rfl
  · exact .inr (.inl rfl)
  · exact .inr (.inl rfl)
  · exact .inr (.inr rfl)

/-- A name alone starts with nothing. -/
theorem splitLead_of_named {name : List Char} (named : isVoid name = false) (single : '/' ∉ name) :
    splitLead name = ([], name) := by
  unfold splitLead
  split
  · simp at single
  · cases named
  · simp at single
  · rfl

/-- An empty end stops at a segment that names something. -/
theorem dropVoidEnd_append_named (front : List (List Char)) {name : List Char}
    (named : isVoid name = false) : dropVoidEnd (front ++ [name]) = front ++ [name] :=
  List.rdropWhile_concat_neg isVoid front name (ne_true_of_eq_false named)

/-- A path that ends with a name has the rest of its segments as its directory. -/
theorem parent?_of_splitLead {cs lead rest name : List Char} {front : List (List Char)}
    (start : splitLead cs = (lead, rest)) (split : rest.splitOn '/' = front ++ [name])
    (named : isVoid name = false) :
    parent? (String.ofList cs) =
      some (String.ofList (lead ++ ['/'].intercalate (dropVoidEnd front))) := by
  have kept : segments (String.ofList cs).toList = front ++ [name] := by
    unfold segments
    rw [String.toList_ofList, start, split, dropVoidEnd_append_named front named]
  rw [parent?_eq kept, String.toList_ofList, start]

/-- Segments that are joined end with no slash, unless the last of them is empty. -/
theorem getLast?_intercalate_ne_slash {front : List (List Char)} {name : List Char}
    (named : isVoid name = false) (single : '/' ∉ name) :
    (['/'].intercalate (front ++ [name])).getLast? ≠ some '/' := by
  have some : name ≠ [] := by
    rintro rfl
    cases named
  have ends : ∃ before, ['/'].intercalate (front ++ [name]) = before ++ name := by
    cases front with
    | nil => exact ⟨[], List.intercalate_singleton⟩
    | cons s rest =>
      rw [intercalate_append ['/'] (List.cons_ne_nil s rest) (List.cons_ne_nil name []),
        List.intercalate_singleton, ← List.append_assoc]
      exact ⟨_, rfl⟩
  obtain ⟨before, ends⟩ := ends
  rw [ends, List.getLast?_append_of_ne_nil before some]
  intro slash
  exact single (List.mem_of_getLast? slash)

/-- A segment that is kept has no slash in it. -/
theorem not_mem_of_mem_segments {cs s : List Char} (mem : s ∈ segments cs) : '/' ∉ s := by
  obtain ⟨void, hvoid, -⟩ := exists_eq_dropVoidEnd_append ((splitLead cs).2.splitOn '/')
  apply not_mem_of_mem_splitOn
  rw [hvoid]
  exact List.mem_append_left void mem

/-- The directory of a path that names something ends with no slash, and its segments are those that
are left when the segments at its end that name nothing are dropped. -/
theorem segments_of_directory {front : List (List Char)} (free : ∀ s ∈ front, '/' ∉ s)
    (some : dropVoidEnd front ≠ []) :
    (['/'].intercalate (dropVoidEnd front)).splitOn '/' = dropVoidEnd front ∧
      (['/'].intercalate (dropVoidEnd front)).getLast? ≠ .some '/' := by
  obtain ⟨void, hvoid, -⟩ := exists_eq_dropVoidEnd_append front
  have freeTop : ∀ s ∈ dropVoidEnd front, '/' ∉ s := fun s mem =>
    free s (hvoid ▸ List.mem_append_left void mem)
  refine ⟨List.splitOn_intercalate '/' freeTop some, ?_⟩
  obtain ⟨upper, lowest, top⟩ := (List.eq_nil_or_concat (dropVoidEnd front)).resolve_left some
  rw [List.concat_eq_append] at top
  have named : isVoid lowest = false :=
    not_void_of_getLast?_dropVoidEnd (top ▸ List.getLast?_concat)
  have single : '/' ∉ lowest := freeTop lowest (by rw [top]; simp)
  rw [top]
  exact getLast?_intercalate_ne_slash named single

/-- Below a directory that does not end in a slash, a file name is put behind a slash. -/
theorem child_eq {directory name : List Char} (some : directory ≠ [])
    (ending : directory.getLast? ≠ .some '/') :
    child directory name = String.ofList (directory ++ '/' :: name) := by
  unfold child
  rw [if_neg]
  simp [some, ending]

/-- Another name in the directory of a path has the same directory. -/
theorem parent?_child {path directory : String} {name other : List Char}
    (file : fileName? path = some name) (here : parent? path = some directory)
    (named : isVoid other = false) (single : '/' ∉ other) :
    parent? (child directory.toList other) = some directory := by
  obtain ⟨last, -⟩ := Option.filter_eq_some_iff.mp file
  have solidName : isVoid name = false := not_void_of_getLast?_dropVoidEnd last
  obtain ⟨front, hsegments⟩ := List.getLast?_eq_some_iff.mp last
  have free : ∀ s ∈ front, '/' ∉ s := fun s mem =>
    not_mem_of_mem_segments (hsegments ▸ List.mem_append_left _ mem)
  obtain ⟨back, -, below⟩ := exists_eq_append_slash hsegments solidName
  rw [parent?_eq hsegments, Option.some.injEq] at here
  subst here
  rw [String.toList_ofList]
  have own : other.splitOn '/' = [] ++ [other] := List.splitOn_eq_singleton single
  by_cases none : dropVoidEnd front = []
  · rw [none, List.intercalate_nil, List.append_nil]
    rcases splitLead_fst_cases path.toList with lead | lead | lead <;> rw [lead]
    · have root : splitLead (['/'] ++ other) = (['/'], other) := rfl
      exact parent?_of_splitLead root own named
    · have own : ('/' :: other).splitOn '/' = [[]] ++ [other] := by
        rw [← List.nil_append ('/' :: other), List.splitOn_append_cons_self, own]
        rfl
      have dot : splitLead (['.'] ++ '/' :: other) = (['.'], '/' :: other) := rfl
      exact parent?_of_splitLead dot own named
    · exact parent?_of_splitLead (splitLead_of_named named single) own named
  · -- The path goes on with a slash where the directory ends, so both start alike.
    rw [if_neg none] at below
    obtain ⟨pieces, noSlash⟩ := segments_of_directory free none
    have some := intercalate_dropVoidEnd_ne_nil none
    have again : dropVoidEnd (dropVoidEnd front) = dropVoidEnd front :=
      List.rdropWhile_idempotent isVoid front
    obtain ⟨lead, rest, split, starts⟩ := exists_splitLead_append_slash
      (List.append_ne_nil_of_right_ne_nil (splitLead path.toList).1 some)
    have start := starts back
    rw [List.append_assoc, ← below, splitLead_append] at start
    rw [start] at below split starts ⊢
    obtain rfl : rest = ['/'].intercalate (dropVoidEnd front) := List.append_cancel_right below
    have whole : child (lead ++ ['/'].intercalate (dropVoidEnd front)) other =
        String.ofList (lead ++ ['/'].intercalate (dropVoidEnd front) ++ '/' :: other) := by
      apply child_eq (List.append_ne_nil_of_right_ne_nil lead some)
      rwa [List.getLast?_append_of_ne_nil lead some]
    have ends : (['/'].intercalate (dropVoidEnd front) ++ '/' :: other).splitOn '/' =
        dropVoidEnd front ++ [other] := by
      rw [List.splitOn_append_cons_self, pieces, own, List.nil_append]
    rw [whole, parent?_of_splitLead (starts other) ends named, again]

/-! ## Stem and extension -/

/-- The stem and the extension of a name make up the name. -/
theorem splitName_append (name : List Char) :
    (splitName name).1 ++ (splitName name).2.elim [] ('.' :: ·) = name := by
  have parts := List.takeWhile_append_dropWhile (p := (· ≠ '.')) (l := name.reverse)
  have dot := List.head?_dropWhile_not (· ≠ '.') name.reverse
  unfold splitName
  generalize name.reverse.takeWhile (· ≠ '.') = tail at parts ⊢
  generalize name.reverse.dropWhile (· ≠ '.') = front at parts dot
  dsimp only
  split
  · exact List.append_nil name
  · rename_i inner
    cases front with
    | nil =>
      rw [List.append_nil] at parts
      rw [parts, List.length_reverse] at inner
      simp at inner
    | cons c front =>
      have hc : c = '.' := by simpa using dot
      have whole : name = front.reverse ++ '.' :: tail.reverse := by
        rw [← List.reverse_reverse name, ← parts, hc]
        simp
      have stem : name.length - tail.length - 1 = front.reverse.length := by
        rw [whole]
        simp only [List.length_append, List.length_cons, List.length_reverse]
        omega
      dsimp only [Option.elim]
      rw [stem, whole, List.take_left]

end LogTopology.PathText
