import LogTopology.Proofs.Disk.Writer
/-!
# What paths name

What is at a path (`item?`), and what can be read from there (`textAt`). Where two disks have the
same directories, a path leads to the same place on both (`locate_of_keeps`), so opening a file at
one path changes what is at another one only if both lead to the same place.

A file that was not there is made empty, and writing at the end of a file only adds to it: no file
loses anything (`Grows`). `Opens` collects what opening a path for writing makes of a disk, and
`opens_of_openOrMake` finds it in both cases, whether the file was there or not. Writing to a file
changes nothing but its text (`textAt_setBytes_of_ne`): not what is at any path, and not what can be
opened.

A path that ends in a slash leads to a directory or nowhere, and is left out where a file is read.
-/

namespace LogTopology.Disk

open Text (Bytes)

/-- What is at a path. -/
def item? (d : Disk) (path : String) : Option Item :=
  (d.locate path).toOption.bind d.at?

/-- What is read from an item. -/
def contentsOf (d : Disk) : Option Item → Except FileError Bytes
  | none => .error .notFound
  | some .directory => .error .isDirectory
  | some (.file id) => .ok (d.bytes id)
  | some _ => .ok []

/-- The text in the file at a path; none where there is no file. -/
def textAt (d : Disk) (path : String) : Bytes :=
  match d.item? path with
  | some (.file id) => d.bytes id
  | _ => []

/-- What is told when a path cannot be opened for writing. -/
def openFault? (d : Disk) (path : String) : Option FileError :=
  match d.openOrMake path with
  | .ok _ => none
  | .error e => some e

/-- Every file is still there, with more text at its end or none. -/
def Grows (before after : Disk) : Prop :=
  ∀ p id, before.at? p = some (.file id) →
    after.at? p = some (.file id) ∧ before.bytes id <+: after.bytes id

/-- What opening a path for writing makes of a disk. No path has another text than before. -/
structure Opens (before after : Disk) (path : String) (item : Item) : Prop where
  sound : after.Sound
  here : after.item? path = some item
  notDirectory : item ≠ .directory
  items : ∀ q other, after.item? q = some other →
    before.item? q = some other ∨ ∃ id, other = .file id
  texts : ∀ q, after.textAt q = before.textAt q
  grows : before.Grows after

variable {d d' : Disk} {path q : String} {p : Place} {item : Item} {id : Nat} {bs : Bytes}

/-- What is at a path is what is at the place that it leads to. -/
theorem item?_of_locate (h : d.locate path = .ok p) : d.item? path = d.at? p := by
  unfold item?
  rw [h]
  rfl

/-- At a path that leads nowhere there is nothing. -/
theorem item?_of_error {e : FileError} (h : d.locate path = .error e) : d.item? path = none := by
  unfold item?
  rw [h]
  rfl

/-- Something exists under a path that does not end in a slash if there is something at it. -/
theorem pathExists_eq (noSlash : endsWithSlash path = false) :
    d.pathExists path = (d.item? path).isSome := by
  unfold pathExists
  cases h : d.locate path with
  | error e => rw [item?_of_error h]; rfl
  | ok p =>
    rw [item?_of_locate h, noSlash]
    exact Bool.and_true _

/-- Reading a path that does not end in a slash gives what is in the item at its place. -/
theorem readFile_eq (noSlash : endsWithSlash path = false) :
    d.readFile path = (d.locate path >>= fun p => d.contentsOf (d.at? p)) := by
  unfold readFile
  congr 1
  funext p
  rw [noSlash]
  cases d.at? p with
  | none => rfl
  | some item => cases item <;> rfl

/-! ## The same directories -/

/-- Keeping all directories keeps where paths lead. -/
theorem locate_of_keeps (keeps : Keeps d d') (h : d.locate path = .ok p) :
    d'.locate path = .ok p := by
  unfold locate at h ⊢
  dsimp only at h ⊢
  split at h
  · cases h
  split at h
  · cases h
  split at h
  · cases h
  rename_i clean some short
  rw [if_neg clean, if_neg some, if_neg short]
  exact (follow_of_keeps keeps (reached_start path) h).2

/-- A place that was filled is found by the paths that lead there, and by no others. -/
theorem Puts.item?_eq {new : Option Item} (puts : Puts d d' p new) (keeps : Keeps d d')
    (back : Keeps d' d) (q : String) :
    d'.item? q = if d.locate q = .ok p then new else d.item? q := by
  cases located : d.locate q with
  | ok r =>
    rw [item?_of_locate (locate_of_keeps keeps located), item?_of_locate located, puts r]
    simp
  | error e =>
    have nowhere : d'.item? q = none := by
      cases located' : d'.locate q with
      | ok r =>
        rw [locate_of_keeps back located'] at located
        cases located
      | error e => exact item?_of_error located'
    rw [nowhere, item?_of_error located]
    simp

/-! ## Texts -/

/-- The text at a path is that of the file there. -/
theorem textAt_of_file (h : d.item? path = some (.file id)) : d.textAt path = d.bytes id := by
  unfold textAt
  rw [h]

/-- What is at a path is at the place that it leads to. -/
theorem exists_place_of_item? (h : d.item? path = some item) :
    ∃ p, d.locate path = .ok p ∧ d.at? p = some item := by
  cases located : d.locate path with
  | error e =>
    rw [item?_of_error located] at h
    cases h
  | ok p =>
    rw [item?_of_locate located] at h
    exact ⟨p, rfl, h⟩

/-- A file at a path has contents. -/
theorem stored_of_item? (sound : d.Sound) (h : d.item? path = some (.file id)) :
    id < d.contents.length := by
  obtain ⟨p, -, here⟩ := exists_place_of_item? h
  exact sound.stored p id here

/-- Writing to a file changes no way through directories. -/
theorem follow_setBytes (names : List String) :
    (d.setBytes id bs).follow p names = d.follow p names := by
  induction names generalizing p with
  | nil => rfl
  | cons name names ih =>
    unfold follow
    rw [show (d.setBytes id bs).at? p = d.at? p from rfl]
    simp only [ih]

/-- Writing to a file changes no place that a path leads to. -/
theorem locate_setBytes (path : String) : (d.setBytes id bs).locate path = d.locate path := by
  unfold locate
  simp only [follow_setBytes]

/-- Writing to a file changes nothing of what is at paths. -/
theorem item?_setBytes (path : String) : (d.setBytes id bs).item? path = d.item? path := by
  unfold item?
  rw [locate_setBytes]
  rfl

/-- Writing to a file changes nothing of what exists. -/
theorem pathExists_setBytes (path : String) :
    (d.setBytes id bs).pathExists path = d.pathExists path := by
  unfold pathExists
  rw [locate_setBytes]
  rfl

/-- Writing to a file makes and removes no directory. -/
theorem pathIsDirectory_setBytes (path : String) :
    (d.setBytes id bs).pathIsDirectory path = d.pathIsDirectory path := by
  unfold pathIsDirectory
  rw [locate_setBytes]
  rfl

/-- What files hold decides nothing about what can be opened. -/
theorem openFault?_setBytes (path : String) :
    (d.setBytes id bs).openFault? path = d.openFault? path := by
  unfold openFault? openOrMake
  rw [locate_setBytes]
  cases d.locate path with
  | error e => rfl
  | ok p =>
    simp only [bind, Except.bind]
    rw [show (d.setBytes id bs).at? p = d.at? p from rfl]
    cases d.at? p with
    | none => cases endsWithSlash path <;> rfl
    | some item => cases item <;> cases endsWithSlash path <;> rfl

/-- A file has the text that was written to it. -/
theorem textAt_setBytes_self (sound : d.Sound) (here : d.item? path = some (.file id)) :
    (d.setBytes id bs).textAt path = bs := by
  rw [textAt_of_file ((item?_setBytes path).trans here),
    bytes_setBytes_self (stored_of_item? sound here)]

/-- Writing to one file changes the text of no other. -/
theorem textAt_setBytes_of_ne (other : d.item? path ≠ some (.file id)) :
    (d.setBytes id bs).textAt path = d.textAt path := by
  unfold textAt
  rw [item?_setBytes]
  split
  · rename_i id' here
    apply bytes_setBytes_of_ne
    rintro rfl
    exact other here
  · rfl

/-! ## Growing -/

theorem Grows.refl (d : Disk) : d.Grows d :=
  fun _ _ here => ⟨here, List.prefix_refl _⟩

theorem Grows.trans {d₁ d₂ d₃ : Disk} (first : d₁.Grows d₂) (second : d₂.Grows d₃) :
    d₁.Grows d₃ := by
  intro p id here
  obtain ⟨still, more⟩ := first p id here
  obtain ⟨still', more'⟩ := second p id still
  exact ⟨still', more.trans more'⟩

/-- Writing to a file what begins with its contents lets the disk grow. -/
theorem grows_setBytes (stored : id < d.contents.length) (more : d.bytes id <+: bs) :
    d.Grows (d.setBytes id bs) := by
  intro p other here
  refine ⟨here, ?_⟩
  by_cases same : other = id
  · rw [same, bytes_setBytes_self stored]
    exact more
  · have kept : (d.setBytes id bs).bytes other = d.bytes other := bytes_setBytes_of_ne same bs
    exact kept ▸ List.prefix_refl _

/-! ## Opening -/

section New

variable (here : d.at? p = none) (puts : Puts d d' p (some (.file d.contents.length)))
  (contents : d'.contents = d.contents ++ [[]])

include contents in
/-- A new file changes the contents of no other. -/
theorem bytes_append_new (stored : id < d.contents.length) : d'.bytes id = d.bytes id := by
  unfold bytes
  rw [contents, List.getElem?_append_left stored]

include here puts in
/-- A new file is found by the paths that lead to its place. -/
theorem item?_of_new (q : String) :
    d'.item? q = if d.locate q = .ok p then some (.file d.contents.length) else d.item? q := by
  have keeps := puts.keeps (by rw [here]; exact nofun)
  have back : Keeps d' d := by
    apply keeps_of_directories
    intro r directory
    rw [puts r] at directory
    split at directory
    · cases directory
    · exact directory
  exact puts.item?_eq keeps back q

include here puts contents in
/-- A new file is empty, so that no path has another text than before. -/
theorem textAt_of_new (sound : d.Sound) (q : String) : d'.textAt q = d.textAt q := by
  unfold textAt
  rw [item?_of_new here puts]
  by_cases new : d.locate q = .ok p
  · have empty : d'.bytes d.contents.length = [] := by
      unfold bytes
      rw [contents, List.getElem?_concat_length]
      rfl
    rw [if_pos new, item?_of_locate new, here]
    exact empty
  · rw [if_neg new]
    split
    · rename_i id old
      exact bytes_append_new contents (stored_of_item? sound old)
    · rfl

include here puts contents in
/-- A new file takes nothing from the others. -/
theorem grows_of_new (sound : d.Sound) : d.Grows d' := by
  intro r id old
  refine ⟨?_, ?_⟩
  · rw [puts r, if_neg, old]
    rintro rfl
    rw [here] at old
    cases old
  · exact bytes_append_new contents (sound.stored r id old) ▸ List.prefix_refl _

end New

/-- What opening a path for writing makes of a disk, whether the file was there or not. -/
theorem opens_of_openOrMake (sound : d.Sound) (h : d.openOrMake path = .ok (item, d')) :
    Opens d d' path item := by
  obtain ⟨-, p, located, notDirectory, ⟨here, rfl⟩ | ⟨here, rfl, puts, contents⟩⟩ :=
    openOrMake_eq_ok h
  · refine ⟨sound, ?_, notDirectory, fun q other same => .inl same, fun q => rfl, .refl d'⟩
    rw [item?_of_locate located, here]
  · refine ⟨sound.of_puts_new puts contents, ?_, notDirectory, ?_,
      textAt_of_new here puts contents sound, grows_of_new here puts contents sound⟩
    · rw [item?_of_new here puts, if_pos located]
    · intro q other same
      rw [item?_of_new here puts] at same
      split at same
      · exact .inr ⟨_, (Option.some.inj same).symm⟩
      · exact .inl same

end LogTopology.Disk
