import LogTopology.Document.Statement
import LogTopology.Proofs.Document.Section
/-!
# Documents are tidy

What is read from a text is tidy, statement by statement: a value that is read is tidy, and so is
the outline after each statement. In a document that was read no table has a key twice
(`read?_tidy`), and so no entry of a section has one (`keyed_of_read?`), which is what merging
relies on.

The proof goes along the reader. Values are read with some room for nesting, and the induction is on
the room: an inline table takes each of its fields once, and the values in it are tidy as they were
read with less. Each statement then leaves the outline tidy, and resolving the marked dates changes
no key.

The reader refuses texts for many other reasons, and which texts it takes is not told: the law
speaks of those that it has taken.
-/

namespace LogTopology.Document

variable {cs rest : List Char} {v : Value}

/-- A reader of values that gives tidy ones only. -/
def ReadsTidy (readItem? : List Char → Option (Value × List Char)) : Prop :=
  ∀ cs v rest, readItem? cs = some (v, rest) → v.Tidy

/-! ## Values -/

/-- Integers are tidy. -/
theorem tidy_of_integer? {n : Int} (h : integer? n = some v) : v.Tidy := by
  unfold integer? at h
  split at h
  · cases h
    exact .integer n
  · cases h

/-- An integer that is read is tidy. -/
theorem tidy_of_readInteger? (h : readInteger? cs = some v) : v.Tidy := by
  unfold readInteger? at h
  dsimp only at h
  split at h <;>
  · obtain ⟨ds, -, h⟩ := Option.bind_eq_some_iff.mp h
    exact tidy_of_integer? h

/-- A float that is read is tidy. -/
theorem tidy_of_readFloat? (h : readFloat? cs = some v) : v.Tidy := by
  unfold readFloat? at h
  dsimp only at h
  split at h
  · cases h
    exact .float _
  · split at h
    · cases h
      exact .float _
    · obtain ⟨x, -, rfl⟩ := Option.map_eq_some_iff.mp h
      exact .float x

/-- A number, a flag or a date that is read is tidy. -/
theorem tidy_of_readScalar? (h : readScalar? cs = some v) : v.Tidy := by
  unfold readScalar? at h
  split at h
  · cases h
    exact .boolean true
  · split at h
    · cases h
      exact .boolean false
    · split at h
      · cases h
        exact .datetime _
      · rcases Option.or_eq_some_iff.mp h with h | ⟨-, h⟩
        · exact tidy_of_readInteger? h
        · exact tidy_of_readFloat? h

/-- A value without values in it is read tidy. -/
theorem readLeaf?_tidy : ReadsTidy readLeaf? := by
  intro cs v rest h
  unfold readLeaf? at h
  split at h
  · obtain ⟨r, -, h⟩ := Option.map_eq_some_iff.mp h
    cases h
    exact .text _
  · obtain ⟨r, -, h⟩ := Option.map_eq_some_iff.mp h
    cases h
    exact .text _
  · obtain ⟨v, hv, h⟩ := Option.map_eq_some_iff.mp h
    cases h
    exact tidy_of_readScalar? hv

section Compound

variable {readItem? : List Char → Option (Value × List Char)} (reads : ReadsTidy readItem?)

include reads

/-- The items of an array are tidy when the values in them are. -/
theorem tidy_of_readItems? {room : Nat} {vs : List Value}
    (h : readItems? readItem? room cs = some (vs, rest)) : ∀ v ∈ vs, v.Tidy := by
  induction room generalizing cs vs rest with
  | zero => cases h
  | succ room ih =>
    unfold readItems? at h
    obtain ⟨cs', -, h⟩ := Option.bind_eq_some_iff.mp h
    split at h
    · cases h
      exact nofun
    · obtain ⟨⟨v, after⟩, hv, h⟩ := Option.bind_eq_some_iff.mp h
      obtain ⟨cs', -, h⟩ := Option.bind_eq_some_iff.mp h
      have first := reads _ v after hv
      split at h
      · obtain ⟨⟨vs, after⟩, hvs, h⟩ := Option.bind_eq_some_iff.mp h
        cases h
        exact List.forall_mem_cons.mpr ⟨first, ih hvs⟩
      · cases h
        exact List.forall_mem_cons.mpr ⟨first, nofun⟩
      · cases h

/-- A value that is assigned is tidy when it is read so. -/
theorem tidy_of_readAssignment? {path : KeyPath}
    (h : readAssignment? readItem? cs = some (path, v, rest)) : v.Tidy := by
  unfold readAssignment? at h
  obtain ⟨_, -, h⟩ := Option.bind_eq_some_iff.mp h
  obtain ⟨_, -, h⟩ := Option.bind_eq_some_iff.mp h
  obtain ⟨⟨v, after⟩, hv, h⟩ := Option.bind_eq_some_iff.mp h
  cases h
  exact reads _ v _ hv

/-- An inline table takes each of its fields once, so it stays tidy. -/
theorem tidy_of_readFields? {room : Nat} {o o' : Outline} (tidy : o.Tidy)
    (h : readFields? readItem? room o cs = some (o', rest)) : Outline.Tidy o' := by
  induction room generalizing cs o with
  | zero => cases h
  | succ room ih =>
    unfold readFields? at h
    obtain ⟨⟨path, v, after⟩, hv, h⟩ := Option.bind_eq_some_iff.mp h
    obtain ⟨next, assigned, h⟩ := Option.bind_eq_some_iff.mp h
    have grown := Outline.Tidy.assign? (tidy_of_readAssignment? reads hv) tidy assigned
    split at h
    · exact ih grown h
    · cases h
      exact grown
    · cases h

/-- An array or an inline table that is read is tidy when the values in it are. -/
theorem tidy_of_readInline? (h : readInline? readItem? cs = some (v, rest)) : v.Tidy := by
  unfold readInline? at h
  split at h
  · cases h
    exact .table List.nodup_nil nofun
  · obtain ⟨⟨o, after⟩, ho, h⟩ := Option.map_eq_some_iff.mp h
    cases h
    have tidy := (tidy_of_readFields? reads .nil ho).toEntries
    exact .table tidy.1 tidy.2

end Compound

/-- Values are read tidy, to any depth that there is room for. -/
theorem readValue?_tidy (room : Nat) : ReadsTidy (readValue? room) := by
  induction room with
  | zero => exact readLeaf?_tidy
  | succ room ih =>
    intro cs v rest h
    unfold readValue? at h
    split at h
    · obtain ⟨r, hr, h⟩ := Option.map_eq_some_iff.mp h
      cases h
      exact .array (tidy_of_readItems? ih hr)
    · exact tidy_of_readInline? ih h
    · exact readLeaf?_tidy _ v rest h

/-! ## Statements -/

/-- A statement that assigns a tidy value, or none. -/
def Statement.Tidy : Statement → Prop
  | .assign _ v => v.Tidy
  | _ => True

/-- A statement that is read assigns a tidy value, or none. -/
theorem tidy_of_readStatement? {s : Statement} (h : readStatement? cs = some (s, rest)) : s.Tidy := by
  unfold readStatement? at h
  split at h
  · obtain ⟨_, -, h⟩ := Option.bind_eq_some_iff.mp h
    obtain ⟨_, -, h⟩ := Option.bind_eq_some_iff.mp h
    obtain ⟨_, -, h⟩ := Option.bind_eq_some_iff.mp h
    cases h
    trivial
  · obtain ⟨_, -, h⟩ := Option.bind_eq_some_iff.mp h
    obtain ⟨_, -, h⟩ := Option.bind_eq_some_iff.mp h
    cases h
    trivial
  · obtain ⟨r, hr, h⟩ := Option.map_eq_some_iff.mp h
    cases h
    exact tidy_of_readAssignment? (readValue?_tidy depthLimit) hr

/-- All statements of a text are tidy. -/
theorem tidy_of_readStatements? {room : Nat} {statements : List Statement}
    (h : readStatements? room cs = some statements) : ∀ s ∈ statements, s.Tidy := by
  induction room generalizing cs statements with
  | zero =>
    cases cs with
    | nil =>
      cases h
      exact nofun
    | cons c cs => cases h
  | succ room ih =>
    cases cs with
    | nil =>
      cases h
      exact nofun
    | cons c cs =>
      obtain ⟨⟨s, after⟩, hs, h⟩ := Option.bind_eq_some_iff.mp h
      obtain ⟨line, -, h⟩ := Option.bind_eq_some_iff.mp h
      obtain ⟨later, hlater, h⟩ := Option.bind_eq_some_iff.mp h
      cases h
      exact List.forall_mem_cons.mpr ⟨tidy_of_readStatement? hs, ih hlater⟩

/-- A statement leaves the outline tidy. -/
theorem Draft.tidy_of_apply? {d d' : Draft} {s : Statement} (tidy : d.outline.Tidy) (hs : s.Tidy)
    (h : d.apply? s = some d') : d'.outline.Tidy := by
  cases s with
  | header path =>
    obtain ⟨o, ho, rfl⟩ := Option.map_eq_some_iff.mp h
    exact tidy.within? (fun _ _ below opened => below.openTable? opened) ho
  | element path =>
    obtain ⟨o, ho, rfl⟩ := Option.map_eq_some_iff.mp h
    exact tidy.within? (fun _ _ below opened => below.openElement? opened) ho
  | assign path v =>
    obtain ⟨o, ho, rfl⟩ := Option.map_eq_some_iff.mp h
    exact tidy.within? (fun _ _ below assigned => .assign? hs below assigned) ho

/-- Statements that are carried out one after the other leave the outline tidy. -/
theorem Draft.tidy_of_foldlM {d d' : Draft} {statements : List Statement} (tidy : d.outline.Tidy)
    (all : ∀ s ∈ statements, s.Tidy) (h : statements.foldlM Draft.apply? d = some d') :
    d'.outline.Tidy := by
  induction statements generalizing d with
  | nil =>
    cases h
    exact tidy
  | cons s statements ih =>
    rw [List.foldlM_cons] at h
    obtain ⟨next, applied, h⟩ := Option.bind_eq_some_iff.mp h
    obtain ⟨here, later⟩ := List.forall_mem_cons.mp all
    exact ih (Draft.tidy_of_apply? tidy here applied) later h

/-! ## Marked dates -/

/-- The items of an array are resolved one by one. -/
theorem Value.mem_resolveItems? {items found : List Value} (h : resolveItems? items = some found)
    (mem : v ∈ found) : ∃ w ∈ items, w.resolve? = some v := by
  induction items generalizing found with
  | nil =>
    cases h
    cases mem
  | cons w items ih =>
    unfold resolveItems? at h
    obtain ⟨first, hfirst, h⟩ := Option.bind_eq_some_iff.mp h
    obtain ⟨later, hlater, h⟩ := Option.bind_eq_some_iff.mp h
    cases h
    rcases List.mem_cons.mp mem with rfl | mem
    · exact ⟨w, List.mem_cons_self, hfirst⟩
    · obtain ⟨w', hw', same⟩ := ih hlater mem
      exact ⟨w', List.mem_cons_of_mem _ hw', same⟩

/-- The fields of a table are resolved one by one, under the same keys. -/
theorem Value.keys_resolveEntries? {t t' : Table} (h : resolveEntries? t = some t') :
    t'.map Prod.fst = t.map Prod.fst ∧ ∀ e' ∈ t', ∃ e ∈ t, e.2.resolve? = some e'.2 := by
  induction t generalizing t' with
  | nil =>
    cases h
    exact ⟨rfl, nofun⟩
  | cons e t ih =>
    obtain ⟨key, w⟩ := e
    unfold resolveEntries? at h
    obtain ⟨first, hfirst, h⟩ := Option.bind_eq_some_iff.mp h
    obtain ⟨later, hlater, h⟩ := Option.bind_eq_some_iff.mp h
    cases h
    obtain ⟨keys, values⟩ := ih hlater
    constructor
    · rw [List.map_cons, List.map_cons, keys]
    · refine List.forall_mem_cons.mpr ⟨⟨_, List.mem_cons_self, hfirst⟩, fun e' mem => ?_⟩
      obtain ⟨e, he, same⟩ := values e' mem
      exact ⟨e, List.mem_cons_of_mem _ he, same⟩

/-- Resolving the marked dates of a tidy value leaves it tidy. -/
theorem Value.Tidy.resolve? {w : Value} (tidy : w.Tidy) (h : w.resolve? = some v) : v.Tidy := by
  induction tidy generalizing v with
  | text s =>
    cases h
    exact .text s
  | integer n =>
    cases h
    exact .integer n
  | float x =>
    cases h
    exact .float x
  | boolean b =>
    cases h
    exact .boolean b
  | datetime d =>
    cases h
    exact .datetime d
  | array all ih =>
    unfold Value.resolve? at h
    obtain ⟨found, hfound, rfl⟩ := Option.map_eq_some_iff.mp h
    apply Value.Tidy.array
    intro v mem
    obtain ⟨w, hw, same⟩ := mem_resolveItems? hfound mem
    exact ih w hw same
  | table keyed all ih =>
    unfold Value.resolve? at h
    split at h
    · obtain ⟨d, -, rfl⟩ := Option.map_eq_some_iff.mp h
      exact .datetime d
    · obtain ⟨t', ht', rfl⟩ := Option.map_eq_some_iff.mp h
      obtain ⟨keys, values⟩ := keys_resolveEntries? ht'
      refine .table (by unfold Table.Keyed; rw [keys]; exact keyed) fun e' mem => ?_
      obtain ⟨e, he, same⟩ := values e' mem
      exact ih e he same

/-! ## Documents -/

/-- A document that was read has no key twice, at any depth. -/
theorem read?_tidy {text : String} {doc : Table} (h : read? text = some doc) : doc.Tidy := by
  obtain ⟨cs, -, h⟩ := Option.bind_eq_some_iff.mp h
  obtain ⟨statements, hstatements, h⟩ := Option.bind_eq_some_iff.mp h
  obtain ⟨draft, drafted, h⟩ := Option.bind_eq_some_iff.mp h
  have tidy := Draft.tidy_of_foldlM .nil (tidy_of_readStatements? hstatements) drafted
  obtain ⟨keyed, all⟩ := tidy.toEntries
  obtain ⟨keys, values⟩ := Value.keys_resolveEntries? h
  refine ⟨by unfold Table.Keyed; rw [keys]; exact keyed, fun e' mem => ?_⟩
  obtain ⟨e, he, same⟩ := values e' mem
  exact (all e he).resolve? same

/-- No entry of a section has a key twice. -/
theorem keyed_of_read? {text : String} {doc : Table} (h : read? text = some doc) (key : String) :
    ∀ e ∈ entriesOf doc key, e.Keyed := by
  intro e mem
  cases listed : tableArray doc key with
  | error fault =>
    unfold entriesOf at mem
    rw [listed] at mem
    cases mem
  | ok found =>
  cases found with
  | none =>
    rw [entriesOf_eq_nil listed] at mem
    cases mem
  | some entries =>
    rw [entriesOf_eq listed] at mem
    have section_ := mem_of_lookup (tableArray_eq_ok_some.mp listed)
    have tidy := (read?_tidy h).2 _ section_
    cases tidy with
    | array all =>
      have entry := all _ (List.mem_map_of_mem mem)
      cases entry with
      | table keyed _ => exact keyed

end LogTopology.Document
