import LogTopology.Disk.Basic
import LogTopology.Proofs.PathText
import LogTopology.Proofs.Setup
/-!
# Where a path leads

A path is followed through open places: directories below directories. So it leads to the same place
on any disk on which the open places stayed open, whatever else was done there, and a file next to
another one is found in the same directory: `follow_of_keeps` and `locate_eq_inDirectory`.

Following a path takes its names one by one. An empty name and a dot lead nowhere else, two dots
lead upwards, and any other name leads into the directory if it is not too long; so only the names
that lead somewhere count (`follow_filter`). `Keeps` says that all that was open on one disk is open
on another one. It is what later modules prove of each operation, and the only thing that they need
for paths to go on leading where they led.

A path may lead upwards beyond its start; there are directories on any disk there (`at?_of_up`), and
nothing else is known of them. Links are not modelled.
-/

namespace LogTopology.Disk

/-- A place that can be gone through: a directory, and so is all that is above it. -/
def Open (d : Disk) (p : Place) : Prop :=
  ∀ q, q <+: p → d.at? q = some .directory

/-- A place to which the way is open. -/
def Reached (d : Disk) (p : Place) : Prop :=
  ∀ q, q <+: p → q ≠ p → d.at? q = some .directory

/-- All that was open stays so. -/
def Keeps (before after : Disk) : Prop :=
  ∀ p, before.Open p → after.Open p

variable {d d' : Disk} {p q : Place} {name : String} {names : List String}

theorem Keeps.trans {d₁ d₂ d₃ : Disk} (first : Keeps d₁ d₂) (second : Keeps d₂ d₃) :
    Keeps d₁ d₃ :=
  fun p h => second p (first p h)

/-- At an open place there is a directory. -/
theorem Open.at? (h : d.Open p) : d.at? p = some .directory :=
  h p (List.prefix_refl p)

/-- A place to which the way is open is open itself when there is a directory. -/
theorem Reached.open (h : d.Reached p) (here : d.at? p = some .directory) : d.Open p := by
  intro q below
  by_cases same : q = p
  · rw [same]
    exact here
  · exact h q below same

/-! ## Following names -/

/-- Where paths start, and above it, there are directories on any disk. -/
theorem at?_of_up (h : p.all (· = "..") = true) : d.at? p = some .directory := by
  unfold Disk.at?
  rw [if_pos h]

/-- Whether a name leads nowhere else. -/
def isVoidName (name : String) : Bool :=
  name = "" || name = "."

/-- An empty name or a dot leads nowhere else. -/
theorem follow_void (void : isVoidName name = true) (here : d.at? p = some .directory) :
    d.follow p (name :: names) = d.follow p names := by
  rw [follow, here]
  exact if_pos void

/-- Any other name leads into the directory, if it is not too long. -/
theorem follow_named (named : isVoidName name = false) (here : d.at? p = some .directory) :
    d.follow p (name :: names) =
      if 255 < name.utf8ByteSize then .error .nameTooLong else d.follow (into p name) names := by
  rw [follow, here]
  exact if_neg (ne_true_of_eq_false named)

/-- No name leads on from what is no directory, and all fail alike. -/
theorem follow_stuck (stuck : d.at? p ≠ some .directory) :
    ∃ e, ∀ name names, d.follow p (name :: names) = .error e := by
  cases here : d.at? p with
  | none =>
    refine ⟨.notFound, fun name names => ?_⟩
    rw [follow, here]
  | some item =>
    cases item with
    | directory => exact absurd here stuck
    | file | nothing | full =>
      refine ⟨.notDirectory, fun name names => ?_⟩
      rw [follow, here]

/-- Names are followed from directories only. -/
theorem at?_of_follow_cons (h : d.follow p (name :: names) = .ok q) :
    d.at? p = some .directory := by
  by_cases here : d.at? p = some .directory
  · exact here
  · obtain ⟨e, fails⟩ := follow_stuck here
    rw [fails] at h
    cases h

/-- Names lead on from where the names before them lead. -/
theorem follow_append (front back : List String) :
    d.follow p (front ++ back) = (d.follow p front >>= fun q => d.follow q back) := by
  induction front generalizing p with
  | nil => rfl
  | cons name front ih =>
    rw [List.cons_append]
    by_cases here : d.at? p = some .directory
    · cases void : isVoidName name with
      | true => rw [follow_void void here, follow_void void here, ih]
      | false =>
        rw [follow_named void here, follow_named void here]
        split
        · rfl
        · exact ih
    · obtain ⟨e, fails⟩ := follow_stuck here
      rw [fails, fails]
      rfl

/-- Only the names that lead somewhere count, as long as one of them comes last. -/
theorem follow_filter (last : String) :
    d.follow p (names ++ [last]) =
      d.follow p ((names.filter fun n => !isVoidName n) ++ [last]) := by
  induction names generalizing p with
  | nil => rfl
  | cons first names ih =>
    by_cases here : d.at? p = some .directory
    · cases void : isVoidName first with
      | true =>
        rw [List.filter_cons_of_neg (by simp [void]), ← ih]
        exact follow_void void here
      | false =>
        rw [List.filter_cons_of_pos (by simp [void]), List.cons_append, List.cons_append,
          follow_named void here, follow_named void here]
        split
        · rfl
        · exact ih
    · obtain ⟨e, fails⟩ := follow_stuck here
      rw [List.cons_append, fails]
      cases (first :: names).filter fun n => !isVoidName n with
      | nil => exact (fails last []).symm
      | cons second others => exact (fails second (others ++ [last])).symm

/-! ## Open places -/

/-- The way is open to what is in an open directory. -/
theorem reached_into (h : d.Open p) : d.Reached (into p name) := by
  intro q below other
  unfold into at below other
  split at below
  · rename_i up
    rw [if_pos up] at other
    split at below
    · rename_i allUp
      rw [if_pos allUp] at other
      rcases List.prefix_concat_iff.mp below with same | below
      · exact absurd same other
      · exact h q below
    · rename_i someDown
      rw [if_neg someDown] at other
      split at below
      · exact h q below
      · exact h q (below.trans (List.dropLast_prefix p))
  · rename_i down
    rw [if_neg down] at other
    rcases List.prefix_concat_iff.mp below with same | below
    · exact absurd same other
    · exact h q below

/-- Where names lead, the way is open, and it is the same way wherever as much is open. -/
theorem follow_of_keeps (keeps : Keeps d d') (reached : d.Reached p)
    (h : d.follow p names = .ok q) : d.Reached q ∧ d'.follow p names = .ok q := by
  induction names generalizing p with
  | nil =>
    cases h
    exact ⟨reached, rfl⟩
  | cons name names ih =>
    have way := reached.open (at?_of_follow_cons h)
    have here' := (keeps p way).at?
    cases void : isVoidName name with
    | true =>
      rw [follow_void void way.at?] at h
      rw [follow_void void here']
      exact ih reached h
    | false =>
      rw [follow_named void way.at?] at h
      rw [follow_named void here']
      split at h
      · cases h
      · rename_i short
        rw [if_neg short]
        exact ih (reached_into way) h

/-! ## Files of a directory -/

/-- Where following a path starts. -/
def start (path : String) : Place :=
  if path.toList.head? = some '/' then ["/"] else []

/-- The place of a path whose file is in a directory, where its text and the file's name can name
one. -/
def inDirectory (dir : Place) (path : String) (file : List Char) : Except FileError Place :=
  if '\x00' ∈ path.toList then .error .badName
  else if 4095 < path.utf8ByteSize then .error .nameTooLong
  else if 255 < (String.ofList file).utf8ByteSize then .error .nameTooLong
  else .ok (dir ++ [String.ofList file])

/-- The way is open to where paths start. -/
theorem reached_start (path : String) : d.Reached (start path) := by
  intro q below other
  unfold start at below other
  split at below
  · rename_i root
    rw [if_pos root] at other
    have above : q = [] ++ ["/"] ∨ q <+: [] := List.prefix_concat_iff.mp below
    rcases above with same | above
    · exact absurd same other
    · rw [List.prefix_nil.mp above]
      exact at?_of_up rfl
  · rw [List.prefix_nil.mp below]
    exact at?_of_up rfl

/-- A name leads nowhere else just when its segment names nothing. -/
theorem isVoidName_ofList (s : List Char) : isVoidName (String.ofList s) = PathText.isVoid s := by
  have empty : String.ofList s = "" ↔ s = [] := by
    rw [← String.ofList_nil, String.ofList_inj]
  have dot : String.ofList s = "." ↔ s = ['.'] := by
    rw [show "." = String.ofList ['.'] from rfl, String.ofList_inj]
  unfold isVoidName PathText.isVoid
  simp only [empty, dot]

/-- The names that lead somewhere are those of the segments that name something. -/
theorem filter_map_ofList (segments : List (List Char)) :
    ((segments.map String.ofList).filter fun n => !isVoidName n) =
      (segments.filter fun s => !PathText.isVoid s).map String.ofList := by
  rw [List.filter_map]
  congr 1
  apply List.filter_congr
  intro s _
  rw [Function.comp_apply, isVoidName_ofList]

/-- A path that ends with a name does not end with a slash. -/
theorem endsWithSlash_eq_false {path : String} {front : List (List Char)} {file : List Char}
    (hsplit : path.toList.splitOn '/' = front ++ [file]) (named : PathText.isVoid file = false) :
    endsWithSlash path = false := by
  apply decide_eq_false
  intro slash
  obtain ⟨text, htext⟩ := List.getLast?_eq_some_iff.mp slash
  rw [htext, List.splitOn_append_cons_self, List.splitOn_nil] at hsplit
  have last := (List.append_inj' hsplit rfl).2
  cases last
  cases named

/-- Where a path to a file leads: the segments that name something are followed one by one, the
file's name last. -/
theorem locate_eq {path : String} {front : List (List Char)} {file : List Char}
    (hsplit : path.toList.splitOn '/' = front ++ [file]) (named : PathText.isVoid file = false) :
    d.locate path =
      if '\x00' ∈ path.toList then .error .badName
      else if 4095 < path.utf8ByteSize then .error .nameTooLong
      else d.follow (start path)
        ((front.filter fun s => !PathText.isVoid s).map String.ofList ++ [String.ofList file]) := by
  have some : path.toList ≠ [] := by
    intro none
    rw [none, List.splitOn_nil] at hsplit
    have alone : [] ++ [[]] = front ++ [file] := hsplit
    have last := (List.append_inj' alone rfl).2
    cases last
    cases named
  unfold locate
  simp only [endsWithSlash_eq_false hsplit named, Bool.false_eq_true, if_false, if_neg some, hsplit,
    List.map_append, List.map_cons, List.map_nil]
  rw [follow_filter, filter_map_ofList]
  rfl

/-- A path whose directory is open leads to its file in there, if it leads anywhere. -/
theorem locate_eq_inDirectory {path : String} {front : List (List Char)} {file : List Char}
    {dir : Place} (hsplit : path.toList.splitOn '/' = front ++ [file])
    (named : PathText.isVoid file = false) (down : file ≠ ['.', '.'])
    (way : d.follow (start path)
      ((front.filter fun s => !PathText.isVoid s).map String.ofList) = .ok dir)
    (here : d.at? dir = some .directory) :
    d.locate path = inDirectory dir path file := by
  have notUp : String.ofList file ≠ ".." := by
    rw [show ".." = String.ofList ['.', '.'] from rfl]
    intro same
    exact down (String.ofList_injective same)
  have void : isVoidName (String.ofList file) = false := by
    rw [isVoidName_ofList, named]
  rw [locate_eq hsplit named, follow_append, way]
  change (if _ then _ else if _ then _ else d.follow dir [String.ofList file]) = _
  rw [follow_named void here, into, if_neg notUp]
  rfl

/-- A name that is void or leads upwards leads from a directory to a directory. -/
theorem at?_of_follow_dots {file : List Char} (reached : d.Reached q)
    (dots : PathText.isVoid file = true ∨ file = ['.', '.'])
    (h : d.follow q [String.ofList file] = .ok p) : d.at? p = some .directory := by
  have way := reached.open (at?_of_follow_cons h)
  rcases dots with void | rfl
  · rw [follow_void (by rw [isVoidName_ofList, void]) way.at?] at h
    cases h
    exact way.at?
  · rw [follow_named (by rw [isVoidName_ofList]; rfl) way.at?] at h
    split at h
    · cases h
    · cases h
      unfold into
      rw [if_pos rfl]
      split
      · rename_i allUp
        apply at?_of_up
        rw [List.all_append, allUp]
        rfl
      · split
        · exact way.at?
        · exact way _ (List.dropLast_prefix q)

/-- A path that leads somewhere is followed name by name. -/
theorem follow_of_locate {path : String} (located : d.locate path = .ok p)
    (noSlash : endsWithSlash path = false) :
    d.follow (start path) ((path.toList.splitOn '/').map String.ofList) = .ok p := by
  unfold locate at located
  simp only [noSlash, Bool.false_eq_true, if_false] at located
  split at located
  · cases located
  · split at located
    · cases located
    · split at located
      · cases located
      · exact located

/-- A path that leads to something else than a directory has a last name, in an open directory. -/
theorem named_of_locate {path : String} (located : d.locate path = .ok p)
    (other : d.at? p ≠ some .directory) (noSlash : endsWithSlash path = false) :
    ∃ front file dir, path.toList.splitOn '/' = front ++ [file] ∧ PathText.isVoid file = false ∧
      file ≠ ['.', '.'] ∧ d.Open dir ∧ d.follow (start path)
        ((front.filter fun s => !PathText.isVoid s).map String.ofList) = .ok dir := by
  have way := follow_of_locate located noSlash
  rcases List.eq_nil_or_concat' (path.toList.splitOn '/') with none | ⟨front, file, hsplit⟩
  · exact absurd none (List.splitOn_ne_nil '/' _)
  rw [hsplit, List.map_append, List.map_singleton, follow_filter, filter_map_ofList,
    follow_append] at way
  obtain ⟨dir, before, last⟩ := Setup.bind_eq_ok.mp way
  have reached := (follow_of_keeps (fun _ h => h) (reached_start path) before).1
  have noDots : ¬(PathText.isVoid file = true ∨ file = ['.', '.']) := by
    intro dots
    exact other (at?_of_follow_dots reached dots last)
  refine ⟨front, file, dir, hsplit, ?_, ?_, reached.open (at?_of_follow_cons last), before⟩
  · exact eq_false_of_ne_true fun void => noDots (.inl void)
  · exact fun up => noDots (.inr up)

end LogTopology.Disk
