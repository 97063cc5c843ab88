import LogTopology.Proofs.Document.Section
import LogTopology.Roster
/-!
# Calls on the logger entries of a document

What one call makes of the entries of a document in which no two loggers have one name. `Does` tells
the cases apart: a level is written into an entry, an entry is appended, an entry goes, or all stays
as it is. Each of them is a deed, and what a document holds after a call follows from what it held
before and the deed alone: `Does.names_eq` and `Does.entryOf?_eq`.

Two names are one only when they are the same text.

A call that finds nothing to do leaves the document as it is, down to the order of its keys. When
the last entry of the section is removed the section goes with it, so a section that is empty was
empty from the start (`Does.get?_eq_empty`). Everything outside the section of the loggers stays
(`Does.erase_eq`).

The laws suppose that the names are distinct, and calls keep them so (`Does.distinct`). With a
repeated name both a level and a removal would be for the first entry of the name only.
-/

namespace LogTopology.Roster

open Document

/-- The entries of the loggers. -/
def entries (doc : Table) : List Table :=
  entriesOf doc key

/-- The names of the loggers, in the order of their entries. -/
def names (doc : Table) : List String :=
  (entries doc).filterMap entryName?

/-- The entry of a logger. -/
def entryOf? (doc : Table) (name : String) : Option Table :=
  findNamed? (entries doc) name

/-- The section of the loggers is missing, or a list of entries whose names are distinct texts. -/
structure Distinct (doc : Table) : Prop where
  listed : ∃ found, tableArray doc key = .ok found
  named : ∀ e ∈ entries doc, ∃ name, entryName? e = some name
  nodup : (names doc).Nodup

/-- A call on the entries of a document. -/
inductive Call where
  | upsert (name : String) (level : Level)
  | remove (name : String)
  deriving DecidableEq, Repr

/-- What a call tells, and the document that it leaves. A call that makes no new document leaves the
one it was made on. -/
def call (doc : Table) : Call → Setup Bool × Table
  | .upsert name level =>
    match upsertLevel doc name level with
    | .ok doc => (.ok true, doc)
    | .error e => (.error e, doc)
  | .remove name =>
    match remove? doc name with
    | .ok (some doc) => (.ok true, doc)
    | .ok none => (.ok false, doc)
    | .error e => (.error e, doc)

/-- What a call can do. -/
inductive Deed where
  | created (name : String) (level : Level)
  | changed (name : String) (level : Level)
  | removed (name : String)
  | nothing
  deriving DecidableEq, Repr

/-- What a call does to a document. A removal counts when it tells that there was an entry. -/
def deed (doc : Table) : Call → Deed
  | .upsert name level => if (entryOf? doc name).isSome then .changed name level else .created name level
  | .remove name =>
    match (call doc (.remove name)).1 with
    | .ok true => .removed name
    | _ => .nothing

/-- An entry with nothing but a name. -/
def bare (name : String) : Table :=
  [("name", .text name)]

/-- An entry with a level written into it. -/
def withLevel (entry : Table) (level : Level) : Table :=
  entry.insert "level" (.text level.name)

/-- What a call can do, what it tells, and the document that it leaves. -/
inductive Does (doc : Table) : Call → Deed → Setup Bool × Table → Prop where
  | changed {name : String} {level : Level} (present : (entryOf? doc name).isSome) :
      Does doc (.upsert name level) (.changed name level)
        (.ok true,
          setEntries doc key (overwriteNamed name [("level", .text level.name)] (entries doc)))
  | created {name : String} {level : Level} (absent : entryOf? doc name = none) :
      Does doc (.upsert name level) (.created name level)
        (.ok true, setEntries doc key (entries doc ++ [withLevel (bare name) level]))
  | removed {name : String} (present : (entryOf? doc name).isSome)
      (others : (entries doc).filter (!isNamed name ·) ≠ []) :
      Does doc (.remove name) (.removed name)
        (.ok true, setEntries doc key ((entries doc).filter (!isNamed name ·)))
  | emptied {name : String} (present : (entryOf? doc name).isSome)
      (alone : (entries doc).filter (!isNamed name ·) = []) :
      Does doc (.remove name) (.removed name) (.ok true, doc.erase key)
  | kept {name : String} {told : Setup Bool} (absent : entryOf? doc name = none)
      (unsuccessful : told ≠ .ok true) : Does doc (.remove name) .nothing (told, doc)

namespace Deed

/-- What a deed makes of the names of the loggers. -/
def names : Deed → List String → List String
  | created name _, l => l ++ [name]
  | removed name, l => l.filter (· ≠ name)
  | _, l => l

/-- What a deed makes of the entry of a logger. -/
def entryOf? (n : String) : Deed → Option Table → Option Table
  | created name level, e | changed name level, e =>
    if n = name then some (withLevel (e.getD (bare n)) level) else e
  | removed name, e => if n = name then none else e
  | nothing, e => e

end Deed

variable {doc : Table} {es : List Table} {e : Table} {name n : String} {level : Level} {c : Call}

/-! ## Lists of entries -/

/-- An entry is not of a name just when it has another one or none. -/
theorem isNamed_eq_false_iff : isNamed name e = false ↔ entryName? e ≠ some name := by
  rw [← Bool.not_eq_true, isNamed_iff]

/-- A name is among the names just when an entry of it is found. -/
theorem mem_names_iff : n ∈ es.filterMap entryName? ↔ (findNamed? es n).isSome := by
  simp only [List.mem_filterMap, findNamed?, List.find?_isSome, isNamed_iff]

/-- Some entry has a name just when one is found. -/
theorem any_isNamed (es : List Table) (name : String) :
    es.any (isNamed name) = (findNamed? es name).isSome := by
  rw [Bool.eq_iff_iff]
  simp [findNamed?]

/-- Writing a level leaves the name of an entry. -/
theorem entryName?_withLevel (e : Table) (level : Level) :
    entryName? (withLevel e level) = entryName? e := by
  unfold entryName? withLevel
  rw [Table.get?_insert, if_neg (by decide)]

/-- The name of an entry does not depend on its level. -/
theorem keeps_level {name : String} (level : Level) (t : Table) (named : entryName? t = some name) :
    entryName? (t.insertAll [("level", .text level.name)]) = some name :=
  (entryName?_withLevel t level).trans named

/-- Writing a level leaves all names in their order. -/
theorem filterMap_entryName?_overwriteNamed (es : List Table) (name : String) (level : Level) :
    (overwriteNamed name [("level", .text level.name)] es).filterMap entryName? =
      es.filterMap entryName? := by
  have same := map_entryName?_overwriteNamed (@keeps_level name level) es
  simpa [List.filterMap_map, Function.comp_def] using congrArg (List.filterMap id) same

/-- Leaving out the entries of a name leaves out the name. -/
theorem filterMap_entryName?_filter (es : List Table) (name : String) :
    (es.filter (!isNamed name ·)).filterMap entryName? =
      (es.filterMap entryName?).filter (· ≠ name) := by
  rw [List.filterMap_filter, List.filter_filterMap]
  congr 1
  funext e
  cases named : entryName? e with
  | none => simp
  | some n => by_cases same : n = name <;> simp [isNamed, named, same, Option.filter]

/-- Behind the entries of one name, those of all others are found as before. -/
theorem findNamed?_filter (es : List Table) (name n : String) :
    findNamed? (es.filter (!isNamed name ·)) n = if n = name then none else findNamed? es n := by
  unfold findNamed?
  rw [List.find?_filter]
  split
  · rename_i same
    simp [same]
  · rename_i other
    congr 1
    funext e
    by_cases named : isNamed n e = true
    · have : isNamed name e = false := by
        rw [isNamed_eq_false_iff, isNamed_iff.mp named]
        simpa using other
      simp [named, this]
    · simp [named]

/-- Where names are distinct, the entry that is found by a name is the only one with it. -/
theorem eraseIdx_of_positionOf? (nodup : (es.filterMap entryName?).Nodup) {i : Nat}
    (found : positionOf? es name = some i) : es.eraseIdx i = es.filter (!isNamed name ·) := by
  unfold positionOf? at found
  induction es generalizing i with
  | nil => cases found
  | cons e es ih =>
    rw [List.findIdx?_cons] at found
    by_cases here : isNamed name e = true
    · rw [if_pos here] at found
      cases found
      rw [List.filterMap_cons_some (isNamed_iff.mp here), List.nodup_cons] at nodup
      have others : ∀ e' ∈ es, (!isNamed name e') = true := by
        intro e' mem
        rw [Bool.not_eq_true', isNamed_eq_false_iff]
        intro named
        exact nodup.1 (List.mem_filterMap.mpr ⟨e', mem, named⟩)
      simp [here, List.filter_eq_self.mpr others]
    · rw [if_neg here] at found
      obtain ⟨j, later, rfl⟩ := Option.map_eq_some_iff.mp found
      have rest := nodup.sublist ((List.sublist_cons_self e es).filterMap entryName?)
      simp [here, ih rest later]

/-! ## Sections -/

/-- The entries are those that the section was set to. -/
theorem entriesOf_setEntries (doc : Table) (es : List Table) : entries (setEntries doc key es) = es := by
  apply entriesOf_eq
  rw [tableArray_eq_ok_some, get?_setEntries, if_pos rfl]

/-- Erasing a key leaves the others. -/
theorem get?_erase (doc : Table) (key k : String) :
    (doc.erase key).get? k = if k = key then none else doc.get? k :=
  lookup_filter_ne key k doc

/-- Without its section a document has no entries. -/
theorem entriesOf_erase (doc : Table) : entries (doc.erase key) = [] := by
  apply entriesOf_eq_nil
  rw [tableArray_eq_ok_none, get?_erase, if_pos rfl]

/-- Writing under a key changes nothing behind it once the key is erased. -/
theorem erase_insert (t : Table) (key : String) (v : Value) :
    (t.insert key v).erase key = t.erase key := by
  unfold Table.erase Table.insert
  induction t with
  | nil => simp [writeNamed]
  | cons e t ih =>
    simp only [ne_eq, decide_not] at ih
    by_cases here : e.1 = key <;> simp [writeNamed, here, ih]

/-- Erasing a key twice is erasing it. -/
theorem erase_erase (doc : Table) (key : String) : (doc.erase key).erase key = doc.erase key := by
  unfold Table.erase
  simp

/-! ## One call -/

/-- The section is missing, or it is read as the entries. -/
theorem tableArray_of_distinct (h : Distinct doc) :
    (tableArray doc key = .ok none ∧ entries doc = []) ∨
      tableArray doc key = .ok (some (entries doc)) := by
  obtain ⟨found, listed⟩ := h.listed
  cases found with
  | none => exact .inl ⟨listed, entriesOf_eq_nil listed⟩
  | some es => exact .inr (by rw [listed, entries, entriesOf_eq listed])

/-- Writing a level changes the entry of the name, or appends one. -/
theorem upsertLevel_of_distinct (h : Distinct doc) (name : String) (level : Level) :
    upsertLevel doc name level =
      .ok (setEntries doc key
        (if (entryOf? doc name).isSome then
          overwriteNamed name [("level", .text level.name)] (entries doc)
        else entries doc ++ [withLevel (bare name) level])) := by
  unfold upsertLevel entryOf?
  rw [← any_isNamed]
  rcases tableArray_of_distinct h with ⟨missing, none⟩ | found
  · rw [missing, none]
    rfl
  · rw [found]
    simp only [bind, Except.bind, Option.getD_some]
    split
    · rfl
    · rfl

/-- A removal that finds an entry takes it out, and the section with it when it was the last. -/
theorem remove?_of_distinct (h : Distinct doc) (name : String) :
    (entryOf? doc name = none ∧ ∀ doc', remove? doc name ≠ .ok (some doc')) ∨
      (entryOf? doc name).isSome ∧ remove? doc name = .ok (some
        (if (entries doc).filter (!isNamed name ·) = [] then doc.erase key
          else setEntries doc key ((entries doc).filter (!isNamed name ·)))) := by
  have present : (entryOf? doc name).isSome = (positionOf? (entries doc) name).isSome := by
    rw [entryOf?, ← any_isNamed, positionOf?, List.findIdx?_isSome]
  unfold remove?
  rcases tableArray_of_distinct h with ⟨missing, none⟩ | found
  · refine .inl ⟨by rw [entryOf?, none]; rfl, ?_⟩
    rw [missing]
    exact nofun
  · rw [found]
    cases stands : positionOf? (entries doc) name with
    | none =>
      refine .inl ⟨by simpa [stands] using present, ?_⟩
      simp only [bind, Except.bind, stands]
      exact nofun
    | some i =>
      refine .inr ⟨by simpa [stands] using present, ?_⟩
      simp only [bind, Except.bind, stands, eraseIdx_of_positionOf? h.nodup stands, List.isEmpty_iff]
      rfl

/-- What a call does, case by case. -/
theorem does_call (h : Distinct doc) (c : Call) : Does doc c (deed doc c) (call doc c) := by
  cases c with
  | upsert name level =>
    simp only [deed, call, upsertLevel_of_distinct h]
    by_cases present : (entryOf? doc name).isSome
    · rw [if_pos present, if_pos present]
      exact .changed present
    · rw [if_neg present, if_neg present]
      exact .created (Option.not_isSome_iff_eq_none.mp present)
  | remove name =>
    simp only [deed, call]
    rcases remove?_of_distinct h name with ⟨absent, told⟩ | ⟨present, told⟩
    · cases outcome : remove? doc name with
      | error e => exact .kept absent (by simp)
      | ok left =>
        cases left with
        | none => exact .kept absent (by simp)
        | some doc' => exact absurd outcome (told doc')
    · simp only [told]
      by_cases alone : (entries doc).filter (!isNamed name ·) = []
      · rw [if_pos alone]
        exact .emptied present alone
      · rw [if_neg alone]
        exact .removed present alone

variable {d : Deed} {r : Setup Bool × Table}

/-- Writing a level always tells success. -/
theorem Does.told_upsert (does : Does doc (.upsert name level) d r) : r.1 = .ok true := by
  cases does with
  | changed => rfl
  | created => rfl

/-- A removal tells success just when there was an entry. -/
theorem Does.told_remove (does : Does doc (.remove name) d r) :
    r.1 = .ok true ↔ (entryOf? doc name).isSome := by
  cases does with
  | removed present others => simp [present]
  | emptied present alone => simp [present]
  | kept absent unsuccessful => simp [absent, unsuccessful]

/-- A call that tells no success leaves the document as it was. -/
theorem Does.unchanged (does : Does doc c d r) (unsuccessful : r.1 ≠ .ok true) : r.2 = doc := by
  cases does with
  | changed | created | removed | emptied => exact absurd rfl unsuccessful
  | kept => rfl

/-- What a call leaves of the names follows from what it does. -/
theorem Does.names_eq (does : Does doc c d r) : names r.2 = d.names (names doc) := by
  unfold names
  cases does with
  | changed present => rw [entriesOf_setEntries, filterMap_entryName?_overwriteNamed]; rfl
  | @created name level absent =>
    have named := (entryName?_withLevel (bare name) level).trans rfl
    rw [entriesOf_setEntries, List.filterMap_append, List.filterMap_cons_some named]
    rfl
  | removed present others => rw [entriesOf_setEntries, filterMap_entryName?_filter]; rfl
  | @emptied name present alone =>
    rw [entriesOf_erase, Deed.names, ← filterMap_entryName?_filter, alone]
  | kept absent unsuccessful => rfl

/-- What a call makes of an entry follows from what it does. -/
theorem Does.entryOf?_eq (does : Does doc c d r) (n : String) :
    entryOf? r.2 n = d.entryOf? n (entryOf? doc n) := by
  cases does with
  | @changed name level present =>
    rw [entryOf?, entriesOf_setEntries, findNamed?_overwriteNamed (keeps_level level)]
    simp only [Deed.entryOf?]
    by_cases same : n = name
    · obtain ⟨e, found⟩ := Option.isSome_iff_exists.mp present
      rw [if_pos same, if_pos same, same, found, show findNamed? (entries doc) name = _ from found]
      rfl
    · rw [if_neg same, if_neg same]
      rfl
  | @created name level absent =>
    have named := (entryName?_withLevel (bare name) level).trans (rfl : _ = some name)
    rw [entryOf?, entriesOf_setEntries, findNamed?_append, findNamed?_cons, named]
    simp only [Deed.entryOf?]
    by_cases same : n = name
    · rw [same, absent, show findNamed? (entries doc) name = none from absent]
      simp
    · have other : some name ≠ some n := by simpa using Ne.symm same
      rw [if_neg other, if_neg same]
      simp [entryOf?, findNamed?]
  | removed present others =>
    rw [entryOf?, entriesOf_setEntries, findNamed?_filter]
    rfl
  | @emptied name present alone =>
    rw [entryOf?, entriesOf_erase, Deed.entryOf?, entryOf?, ← findNamed?_filter, alone]
  | kept absent unsuccessful => rfl

/-- A call leaves everything but the section of the loggers as it is. -/
theorem Does.erase_eq (does : Does doc c d r) : r.2.erase key = doc.erase key := by
  cases does with
  | changed | created | removed => exact erase_insert doc key _
  | emptied => exact erase_erase doc key
  | kept => rfl

/-- Only what was empty already is left empty. -/
theorem Does.get?_eq_empty (does : Does doc c d r) (empty : r.2.get? key = some (.array [])) :
    doc.get? key = some (.array []) ∧ d = .nothing := by
  cases does with
  | @changed name level present =>
    have same := map_entryName?_overwriteNamed (@keeps_level name level) (entries doc)
    have none : overwriteNamed name [("level", .text level.name)] (entries doc) = [] := by
      simpa [get?_setEntries] using empty
    have gone : entries doc = [] := by
      rw [none] at same
      exact List.map_eq_nil_iff.mp same.symm
    simp [entryOf?, findNamed?, gone] at present
  | created absent => simp [get?_setEntries] at empty
  | removed present others =>
    rw [get?_setEntries, if_pos rfl, Option.some_inj, Value.array.injEq, List.map_eq_nil_iff] at empty
    exact absurd empty others
  | emptied present alone => simp [get?_erase] at empty
  | kept absent unsuccessful => exact ⟨empty, rfl⟩

/-- All entries have names just when none of them lacks one. -/
theorem named_iff : (∀ e ∈ es, ∃ name, entryName? e = some name) ↔ none ∉ es.map entryName? := by
  simp [Option.ne_none_iff_exists']

/-- A call leaves the names of the loggers distinct. -/
theorem Does.distinct (does : Does doc c d r) (h : Distinct doc) : Distinct r.2 where
  listed := by
    cases does with
    | changed | created | removed =>
      exact ⟨_, tableArray_eq_ok_some.mpr (by rw [get?_setEntries, if_pos rfl])⟩
    | emptied => exact ⟨none, tableArray_eq_ok_none.mpr (by rw [get?_erase, if_pos rfl])⟩
    | kept => exact h.listed
  named := by
    cases does with
    | changed =>
      rw [entriesOf_setEntries, named_iff, map_entryName?_overwriteNamed (keeps_level _), ← named_iff]
      exact h.named
    | @created name level absent =>
      have named := (entryName?_withLevel (bare name) level).trans rfl
      rw [entriesOf_setEntries, List.forall_mem_append, List.forall_mem_singleton]
      exact ⟨h.named, name, named⟩
    | removed =>
      rw [entriesOf_setEntries]
      intro e mem
      exact h.named e (List.mem_filter.mp mem).1
    | emptied => simp [entriesOf_erase]
    | kept => exact h.named
  nodup := by
    rw [does.names_eq]
    cases does with
    | @created name _ absent =>
      have fresh : name ∉ names doc := by
        rw [names, mem_names_iff, ← entryOf?, absent]
        simp
      refine List.nodup_append.mpr ⟨h.nodup, by simp, ?_⟩
      rintro n mem _ last rfl
      rw [List.mem_singleton.mp last] at mem
      exact fresh mem
    | removed | emptied => exact h.nodup.filter _
    | changed | kept => exact h.nodup

end LogTopology.Roster
