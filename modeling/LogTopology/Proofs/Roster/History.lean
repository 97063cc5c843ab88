import LogTopology.Proofs.Roster.Calls
import Mathlib.Data.List.Induction
/-!
# The logger entries after many calls

The document is a map from names to entries: what it holds of a name is told by what was done to
that name, whatever was done to others in between. A name has an entry when the last that was done
to it was writing a level. The level is the one that was written last; the other fields are those
that the entry had from the start, unless it was removed once, which leaves only the name. Entries
that stay keep their order, and those that are created follow in the order of their creation.

`calls_account_for_entries` tells this of all calls in turn, together with what each of them tells.

The state after many calls is a fold of deeds, so each question is answered by an induction on the
deeds that looks at one name only (`isSome_foldl_entryOf?`, `get?_level_of_foldl`,
`erase_level_of_foldl`). The order of the names needs all deeds at once, and is told by the names
that were created and not removed since (`standing`).
-/

namespace LogTopology.Roster

open Document

/-- The document after calls in turn. -/
def after (doc : Table) : List Call → Table
  | [] => doc
  | c :: cs => after (call doc c).2 cs

/-- What calls in turn do. -/
def deeds (doc : Table) : List Call → List Deed
  | [] => []
  | c :: cs => deed doc c :: deeds (call doc c).2 cs

namespace Deed

/-- Whether a logger has an entry after a deed to it. -/
def leaves? (n : String) : Deed → Option Bool
  | created name _ | changed name _ => if name = n then some true else none
  | removed name => if name = n then some false else none
  | nothing => none

/-- The level that a deed writes for a logger. -/
def level? (n : String) : Deed → Option Level
  | created name level | changed name level => if name = n then some level else none
  | _ => none

end Deed

/-- The names that were created and not removed afterwards, in the order of their creation. -/
def standing : List Deed → List String
  | [] => []
  | .created name _ :: ds => if .removed name ∈ ds then standing ds else name :: standing ds
  | _ :: ds => standing ds

/-- How a document has come from another one by deeds. -/
structure Accounts (doc : Table) (ds : List Deed) (doc' : Table) : Prop where
  present : ∀ n, (entryOf? doc' n).isSome =
    (ds.filterMap (Deed.leaves? n)).getLast?.getD (entryOf? doc n).isSome
  level : ∀ n e, entryOf? doc' n = some e → e.get? "level" =
    match (ds.filterMap (Deed.level? n)).getLast? with
    | some level => some (.text level.name)
    | none => (entryOf? doc n).bind (·.get? "level")
  others : ∀ n e, entryOf? doc' n = some e → e.erase "level" =
    (if .removed n ∈ ds then bare n else (entryOf? doc n).getD (bare n)).erase "level"
  order : names doc' = (names doc).filter (.removed · ∉ ds) ++ standing ds
  elsewhere : doc'.erase key = doc.erase key
  empty : doc'.get? key = some (.array []) →
    doc.get? key = some (.array []) ∧ ∀ d ∈ ds, d = .nothing

/-- What calls on a document tell. -/
structure Answers (doc : Table) : Prop where
  upsert : ∀ name level, (call doc (.upsert name level)).1 = .ok true
  remove : ∀ name, (call doc (.remove name)).1 = .ok true ↔ (entryOf? doc name).isSome
  unchanged : ∀ c, (call doc c).1 ≠ .ok true → (call doc c).2 = doc

variable {doc : Table} {c : Call} {cs : List Call} {d : Deed} {ds : List Deed} {n : String}
  {first last : Option Table} {e : Table}

/-! ## Deeds in turn -/

/-- What a document holds of a name is what the deeds make of what it held at first. -/
theorem entryOf?_after (h : Distinct doc) (cs : List Call) (n : String) :
    entryOf? (after doc cs) n = (deeds doc cs).foldl (fun e d => d.entryOf? n e) (entryOf? doc n) := by
  induction cs generalizing doc with
  | nil => rfl
  | cons c cs ih =>
    have does := does_call h c
    rw [after, ih (does.distinct h), deeds, List.foldl_cons, does.entryOf?_eq]

/-- The names of a document are what the deeds make of the first ones. -/
theorem names_after (h : Distinct doc) (cs : List Call) :
    names (after doc cs) = (deeds doc cs).foldl (fun l d => d.names l) (names doc) := by
  induction cs generalizing doc with
  | nil => rfl
  | cons c cs ih =>
    have does := does_call h c
    rw [after, ih (does.distinct h), deeds, List.foldl_cons, does.names_eq]

/-- Calls leave the names of the loggers distinct. -/
theorem distinct_after (h : Distinct doc) (cs : List Call) : Distinct (after doc cs) := by
  induction cs generalizing doc with
  | nil => exact h
  | cons c cs ih => exact ih ((does_call h c).distinct h)

/-- Calls change nothing outside the section of the loggers. -/
theorem erase_after (h : Distinct doc) (cs : List Call) :
    (after doc cs).erase key = doc.erase key := by
  induction cs generalizing doc with
  | nil => rfl
  | cons c cs ih =>
    have does := does_call h c
    rw [after, ih (does.distinct h), does.erase_eq]

/-- An empty section is one that was there from the start, and nothing has been done to it. -/
theorem nothing_of_empty (h : Distinct doc) (empty : (after doc cs).get? key = some (.array [])) :
    doc.get? key = some (.array []) ∧ ∀ d ∈ deeds doc cs, d = .nothing := by
  induction cs generalizing doc with
  | nil => exact ⟨empty, nofun⟩
  | cons c cs ih =>
    have does := does_call h c
    obtain ⟨before, rest⟩ := ih (does.distinct h) empty
    obtain ⟨start, nothing⟩ := does.get?_eq_empty before
    exact ⟨start, List.forall_mem_cons.mpr ⟨nothing, rest⟩⟩

/-! ## One name -/

/-- What a deed leaves of a name is known from the deed, unless it does nothing to the name. -/
theorem isSome_entryOf? (d : Deed) (n : String) (e : Option Table) :
    (d.entryOf? n e).isSome = (d.leaves? n).getD e.isSome := by
  cases d with
  | created name | changed name | removed name =>
    by_cases same : n = name
    · simp [Deed.entryOf?, Deed.leaves?, same]
    · simp [Deed.entryOf?, Deed.leaves?, same, Ne.symm same]
  | nothing => rfl

/-- Whether a logger has an entry is told by the last deed to it. -/
theorem isSome_foldl_entryOf? (ds : List Deed) (n : String) (e : Option Table) :
    (ds.foldl (fun e d => d.entryOf? n e) e).isSome =
      (ds.filterMap (Deed.leaves? n)).getLast?.getD e.isSome := by
  induction ds generalizing e with
  | nil => rfl
  | cons d ds ih =>
    rw [List.foldl_cons, ih, isSome_entryOf?]
    cases left : d.leaves? n with
    | none => rw [List.filterMap_cons_none left]; rfl
    | some there => rw [List.filterMap_cons_some left, List.getLast?_cons]; rfl

/-- An entry that is there after a deed has had its level written, or was there before. -/
theorem level_of_deed (here : d.entryOf? n first = some e) :
    (∃ level, d.level? n = some level ∧ e.get? "level" = some (.text level.name)) ∨
      d.level? n = none ∧ first = some e := by
  cases d with
  | created name level | changed name level =>
    by_cases same : n = name
    · refine .inl ⟨level, by simp [Deed.level?, same], ?_⟩
      simp only [Deed.entryOf?, if_pos same, Option.some_inj] at here
      rw [← here, withLevel, Table.get?_insert, if_pos rfl]
    · exact .inr ⟨by simp [Deed.level?, Ne.symm same], by simpa [Deed.entryOf?, same] using here⟩
  | removed name =>
    by_cases same : n = name
    · simp [Deed.entryOf?, same] at here
    · exact .inr ⟨rfl, by simpa [Deed.entryOf?, same] using here⟩
  | nothing => exact .inr ⟨rfl, here⟩

/-- The level that was written last is the one that the entry has. -/
theorem get?_level_of_foldl (last : ds.foldl (fun e d => d.entryOf? n e) first = some e) :
    e.get? "level" =
      match (ds.filterMap (Deed.level? n)).getLast? with
      | some level => some (.text level.name)
      | none => first.bind (·.get? "level") := by
  induction ds using List.reverseRecOn generalizing e with
  | nil =>
    rw [List.foldl_nil] at last
    rw [last]
    rfl
  | append_singleton ds d ih =>
    rw [List.foldl_append, List.foldl_cons, List.foldl_nil] at last
    rcases level_of_deed last with ⟨level, written, here⟩ | ⟨unwritten, before⟩
    · simp [written, here]
    · simp [unwritten, ih before]

/-- But for its level, an entry is left as it is by all that does not remove it. -/
theorem erase_level_of_deed (d : Deed) (n : String) (first : Option Table) :
    ((d.entryOf? n first).getD (bare n)).erase "level" =
      (if .removed n = d then bare n else first.getD (bare n)).erase "level" := by
  cases d with
  | created name level | changed name level =>
    by_cases same : n = name
    · simp [Deed.entryOf?, same, withLevel, erase_insert]
    · simp [Deed.entryOf?, same]
  | removed name => by_cases same : n = name <;> simp [Deed.entryOf?, same]
  | nothing => simp [Deed.entryOf?]

/-- All but the level is as from the start, or gone with the first removal. -/
theorem erase_level_of_foldl (last : ds.foldl (fun e d => d.entryOf? n e) first = some e) :
    e.erase "level" =
      (if .removed n ∈ ds then bare n else first.getD (bare n)).erase "level" := by
  induction ds generalizing first with
  | nil =>
    rw [List.foldl_nil] at last
    rw [last]
    rfl
  | cons d ds ih =>
    rw [ih last]
    by_cases later : .removed n ∈ ds
    · simp [later]
    · simp [later, erase_level_of_deed]

/-! ## The order of the names -/

/-- The names that were there and not removed come first, then those that were created and stayed.
-/
theorem foldl_names (ds : List Deed) (l : List String) :
    ds.foldl (fun l d => d.names l) l = l.filter (.removed · ∉ ds) ++ standing ds := by
  induction ds generalizing l with
  | nil =>
    have all : l.filter (.removed · ∉ ([] : List Deed)) = l := List.filter_eq_self.mpr (by simp)
    rw [all]
    exact (List.append_nil l).symm
  | cons d ds ih =>
    rw [List.foldl_cons, ih]
    cases d with
    | created name level =>
      by_cases gone : .removed name ∈ ds <;> simp [Deed.names, standing, gone]
    | removed name =>
      simp [Deed.names, standing, List.filter_filter, Bool.and_comm]
    | changed | nothing => simp [Deed.names, standing]

/-! ## Calls in turn -/

/-- The document after calls is accounted for by what they did. -/
theorem accounts_after (h : Distinct doc) (cs : List Call) :
    Accounts doc (deeds doc cs) (after doc cs) where
  present n := by rw [entryOf?_after h, isSome_foldl_entryOf?]
  level n e here := by
    rw [entryOf?_after h] at here
    exact get?_level_of_foldl here
  others n e here := by
    rw [entryOf?_after h] at here
    exact erase_level_of_foldl here
  order := by rw [names_after h, foldl_names]
  elsewhere := erase_after h cs
  empty := nothing_of_empty h

/-- What a call tells is told by the entries alone. -/
theorem answers_of_distinct (h : Distinct doc) : Answers doc where
  upsert name level := (does_call h (.upsert name level)).told_upsert
  remove name := (does_call h (.remove name)).told_remove
  unchanged c := (does_call h c).unchanged

/-- Whatever calls are made on a document whose loggers have distinct names, the names stay
distinct, the document is told by what the calls did, and so is what they tell. -/
theorem calls_account_for_entries (h : Distinct doc) (cs : List Call) :
    Distinct (after doc cs) ∧ Accounts doc (deeds doc cs) (after doc cs) ∧
      Answers (after doc cs) :=
  ⟨distinct_after h cs, accounts_after h cs, answers_of_distinct (distinct_after h cs)⟩

/-- A logger that is removed and written again comes back behind the others and without its sinks. -/
theorem written_again_after_removal :
    let doc : Table :=
      [("global_pattern", .text "%v"),
        ("logger", .array [.table [("name", .text "net"), ("level", .text "info"),
          ("sinks", .array [.text "out"])], .table [("name", .text "db")]])]
    let cs : List Call :=
      [.upsert "ui" .warn, .remove "net", .upsert "net" .debug, .remove "none", .upsert "db" .err]
    Distinct doc ∧
      deeds doc cs = [.created "ui" .warn, .removed "net", .created "net" .debug, .nothing,
        .changed "db" .err] ∧
      names (after doc cs) = ["db", "ui", "net"] ∧
      Distinct (after doc cs) ∧ Accounts doc (deeds doc cs) (after doc cs) ∧
      Answers (after doc cs) := by
  intro doc cs
  have distinct : Distinct doc := by
    refine ⟨⟨_, rfl⟩, ?_, by decide⟩
    rw [named_iff]
    decide
  exact ⟨distinct, by decide, by decide, calls_account_for_entries distinct cs⟩

end LogTopology.Roster
