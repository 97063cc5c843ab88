import LogTopology.Journal
import LogTopology.Proofs.Pattern.Table
import Mathlib.Data.Finset.Card
/-!
# The order of named patterns

A document's patterns are listed by name: each name once, in the order of the first declarations,
with the value of the last one. Looking a name up and going through the list agree, though the one
uses the index and the other the entries (`PatternTable.indexed` ties the two together).

One declaration adds its name at the end, unless the name is there (`names_insert`); from this the
names of a whole run follow (`names_of_declare`). The values are those of `declare_yields`.

Reports are left out, and so is what the patterns mean.
-/

namespace LogTopology.PatternTable

open Document (textField? entriesOf)

variable {σ S P L : Type} {t t' : PatternTable} {entries : List Document.Table}
  {cs : List (Answered S P L)}

/-- The names that entries declare, in order. -/
def declaredNames (entries : List Document.Table) : List String :=
  entries.filterMap fun e => textField? e "name"

/-- A table that lists what entries declare. -/
structure Lists (entries : List Document.Table) (t : PatternTable) : Prop where
  /-- Each name once, in the order of the first declarations. -/
  names : t.entries.map Prod.fst = (declaredNames entries).eraseDups
  /-- Beside each name is the value that was declared last. -/
  values : ∀ e ∈ t.entries, lastValue? entries e.1 = some e.2
  /-- What is found under a name is what the list has beside it. -/
  agrees : ∀ n v, t.get? n = some v ↔ (n, v) ∈ t.entries
  /-- Under a declared name its last value is found. -/
  found : ∀ n ∈ declaredNames entries, ∃ v, lastValue? entries n = some v ∧ t.get? n = some v
  /-- Under any other name nothing is found. -/
  absent : ∀ n ∉ declaredNames entries, t.get? n = none
  size : t.size = (declaredNames entries).toFinset.card

/-! ## Names -/

/-- Distinct things are left as they are. -/
theorem eraseDups_of_nodup {α : Type} [BEq α] [LawfulBEq α] {l : List α} (distinct : l.Nodup) :
    l.eraseDups = l := by
  induction l with
  | nil => rfl
  | cons a l ih =>
    obtain ⟨new, distinct⟩ := List.nodup_cons.mp distinct
    have keeps : l.filter (fun b => !b == a) = l := by
      rw [List.filter_eq_self]
      intro b mem
      rw [Bool.not_eq_true', beq_eq_false_iff_ne]
      rintro rfl
      exact new mem
    rw [List.eraseDups_cons, keeps, ih distinct]

/-- A declaration adds its name at the end, unless the name is there. -/
theorem names_insert (t : PatternTable) (name value : String) :
    (t.insert name value).entries.map Prod.fst =
      if name ∈ t.entries.map Prod.fst then t.entries.map Prod.fst
      else t.entries.map Prod.fst ++ [name] := by
  rw [entries_insert]
  split
  next there => exact names_writeNamed_of_mem there
  next new => rw [writeNamed_of_new new, List.map_append, List.map_singleton]

/-- Declared behind others, a name counts only if it is new. -/
theorem eraseDups_names_insert (t : PatternTable) (name value : String) (later : List String) :
    ((t.insert name value).entries.map Prod.fst ++ later).eraseDups =
      (t.entries.map Prod.fst ++ name :: later).eraseDups := by
  rw [names_insert]
  split
  next there =>
    rw [List.eraseDups_append, List.eraseDups_append, List.removeAll, List.removeAll,
      List.filter_cons_of_neg (by simpa using there)]
  next new => rw [List.append_assoc, List.singleton_append]

/-- A run of declarations lists the names that were there and then the new ones, in order. -/
theorem names_of_declare (h : (t.declare entries).Yields cs (.ok t')) :
    t'.entries.map Prod.fst = (t.entries.map Prod.fst ++ declaredNames entries).eraseDups := by
  induction entries generalizing t cs with
  | nil =>
    obtain ⟨-, same⟩ := Plan.yields_pure.mp h
    cases same
    rw [declaredNames, List.filterMap_nil, List.append_nil, eraseDups_of_nodup t'.nodup_names]
  | cons entry entries ih =>
    unfold declare at h
    rcases Plan.yields_ofSetup_bind h with ⟨_, -, -, absurd⟩ | ⟨name, named, afterName⟩
    · cases absurd
    rcases Plan.yields_ofSetup_bind afterName with ⟨_, -, -, absurd⟩ | ⟨value, -, afterValue⟩
    · cases absurd
    have rest : ((t.insert name value).declare entries).Yields cs (.ok t') := by
      split at afterValue
      · exact Plan.yields_report_bind afterValue
      · exact afterValue
    have names : declaredNames (entry :: entries) = name :: declaredNames entries :=
      List.filterMap_cons_some (Document.textField?_eq_some.mpr (Document.required_eq_ok.mp named))
    rw [ih rest, eraseDups_names_insert, names]

/-! ## The patterns of a document -/

/-- The patterns of a document come from declaring its entries, of which there may be none. -/
theorem declare_of_ofDocument {doc : Document.Table} (h : (ofDocument doc).Yields cs (.ok t)) :
    (empty.declare (entriesOf doc "pattern")).Yields cs (.ok t) := by
  unfold ofDocument at h
  rcases Plan.yields_ofSetup_bind h with ⟨_, -, -, absurd⟩ | ⟨found, section_, afterSection⟩
  · cases absurd
  cases found with
  | none =>
    rw [Document.entriesOf_eq_nil section_]
    exact afterSection
  | some entries =>
    rw [Document.entriesOf_eq section_]
    rcases Plan.yields_bind.mp afterSection with ⟨_, -, absurd⟩ | ⟨t', _, _, declared, after, rfl⟩
    · cases absurd
    have done := Plan.yields_report_bind after
    obtain ⟨rfl, same⟩ := Plan.yields_pure.mp done
    cases same
    rw [List.append_nil]
    exact declared

/-- A name that entries declare has a last value, and no other name has one. -/
theorem isSome_lastValue?_iff {n : String} (all : ∀ e ∈ entries, Declares e) :
    (lastValue? entries n).isSome ↔ n ∈ declaredNames entries := by
  rw [lastValue?, List.isSome_findSome?, List.any_reverse, List.any_eq_true, declaredNames,
    List.mem_filterMap]
  refine exists_congr fun e => and_congr_right fun mem => ?_
  obtain ⟨name, value, -, valued⟩ := all e mem
  rw [Document.textField?_eq_some.mpr valued]
  by_cases same : textField? e "name" = some n
  · simp [same]
  · simp [same]

/-- The patterns of a document are accepted when all of them have a name and a value. They are then
listed by name, in the order of the first declarations and with the values of the last ones, and
found by name as they are listed. -/
theorem patterns_listed_in_order (b : Backend σ S P L) (s : σ) (doc : Document.Table) :
    let built := ((ofDocument doc : Plan S P L PatternTable).run b s).result
    ((∃ t, built = .ok t) ↔ Declared doc) ∧
      ∀ t, built = .ok t → Lists (entriesOf doc "pattern") t := by
  intro built
  -- The stage makes no call, so the backend has no part in its result.
  obtain ⟨yields, -⟩ :=
    (ofDocument_obeys (S := S) (P := P) (L := L) ⟨fun _ _ => False⟩ doc []).run_of_no_call b s
  obtain ⟨-, outcome⟩ := ofDocument_yields yields
  constructor
  · rcases outcome with ⟨t, arrived, declared, -⟩ | ⟨⟨e, failed⟩, faulty⟩
    · exact iff_of_true ⟨t, arrived⟩ declared
    · refine iff_of_false ?_ faulty
      rintro ⟨t, arrived⟩
      cases arrived.symm.trans failed
  · intro t arrived
    obtain ⟨t', arrived', declared, values⟩ | ⟨⟨e, failed⟩, -⟩ := outcome
    swap
    · cases arrived.symm.trans failed
    cases arrived.symm.trans arrived'
    have names : t.entries.map Prod.fst = (declaredNames (entriesOf doc "pattern")).eraseDups := by
      rw [show ((ofDocument doc).run b s).result = .ok t from arrived] at yields
      exact names_of_declare (declare_of_ofDocument yields)
    have agrees (n v : String) : t.get? n = some v ↔ (n, v) ∈ t.entries := by
      rw [get?_eq_lookup]
      exact ⟨mem_of_lookup, lookup_of_mem t.nodup_names⟩
    have last (n : String) := isSome_lastValue?_iff (n := n) declared.2
    refine ⟨names, ?_, agrees, ?_, ?_, ?_⟩
    · intro e mem
      rw [← values]
      exact (agrees e.1 e.2).mpr mem
    · intro n mem
      obtain ⟨v, value⟩ := Option.isSome_iff_exists.mp ((last n).mpr mem)
      exact ⟨v, value, (values n).trans value⟩
    · intro n undeclared
      rw [values, ← Option.not_isSome_iff_eq_none, last]
      exact undeclared
    · calc
        t.size = (t.entries.map Prod.fst).length := (List.length_map ..).symm
        _ = (t.entries.map Prod.fst).toFinset.card := (List.toFinset_card_of_nodup t.nodup_names).symm
        _ = (declaredNames (entriesOf doc "pattern")).toFinset.card := by
          rw [names]
          congr 1
          ext n
          rw [List.mem_toFinset, List.mem_toFinset, List.mem_eraseDups]

/-- Five declarations of three names. -/
theorem repeated_names_listed_in_order :
    let entry (name value : String) : Document.Value :=
      .table [("name", .text name), ("value", .text value)]
    let doc : Document.Table := [("pattern", .array [entry "b" "%v", entry "a" "%l", entry "b" "%t",
      entry "c" "%n", entry "a" "%L"])]
    let plan : Plan Journal.Item Journal.Item Journal.Item PatternTable := ofDocument doc
    ∃ t, (plan.run (Journal.backend []) .empty).result = .ok t ∧
      t.entries = [("b", "%t"), ("a", "%L"), ("c", "%n")] ∧ t.get? "a" = some "%L" ∧
      Lists (entriesOf doc "pattern") t := by
  intro entry doc plan
  obtain ⟨-, lists⟩ := patterns_listed_in_order (Journal.backend []) .empty doc
  exact ⟨_, rfl, rfl, rfl, lists _ rfl⟩

end LogTopology.PatternTable
