import LogTopology.Pattern.Table
import LogTopology.Proofs.Document.Field
import LogTopology.Proofs.NamedList
import LogTopology.Proofs.Plan.Rule
/-!
# The last value of a pattern wins

Declaring patterns asks nothing of a backend. It succeeds exactly when every entry has a name and a
value, and every name then has the value of the last entry that declares it (`ofDocument_yields`).

A table of patterns has its entries in a list and their places in an index. The index is what is
searched, and `get?_eq_lookup` shows that this finds what going through the entries would find, as
the two are built together. A declaration writes into that list as into any list of named values, so
its laws are those of such lists (`entries_insert`).

Whether a value is a pattern is not asked here: it is compiled when a logger is given it. The order
of the entries has a module of its own.
-/

namespace LogTopology.PatternTable

open Document (textField? entriesOf)

variable {S P L : Type} {t : PatternTable} {entries : List Document.Table} {n : String}

/-- The value that the last entry of a name declares. -/
def lastValue? (entries : List Document.Table) (name : String) : Option String :=
  entries.reverse.findSome? fun e =>
    if textField? e "name" = some name then textField? e "value" else none

/-- An entry that declares a pattern. -/
def Declares (entry : Document.Table) : Prop :=
  ∃ name value, Document.optional .string entry "name" = .ok (some name) ∧
    Document.optional .string entry "value" = .ok (some value)

/-! ## The index -/

/-- The names of a table are distinct, as each has one place in the index. -/
theorem nodup_names (t : PatternTable) : (t.entries.map Prod.fst).Nodup := by
  rw [List.nodup_iff_getElem?_ne_getElem?]
  intro i j before inside same
  have there := List.getElem?_eq_getElem inside
  rw [List.getElem?_map] at same there
  rw [List.getElem?_map, there] at same
  have first := (t.indexed _ i).mpr same
  rw [(t.indexed _ j).mpr there] at first
  exact Nat.ne_of_lt before (Option.some.inj first).symm

/-- A name that the index does not have is not among the names. -/
theorem not_mem_names_of_lookup (absent : t.index.lookup n = none) : n ∉ t.entries.map Prod.fst := by
  intro mem
  obtain ⟨i, here⟩ := List.mem_iff_getElem?.mp mem
  rw [List.getElem?_map, ← t.indexed, absent] at here
  cases here

/-- What is found by the index is found by going through the entries. -/
theorem get?_eq_lookup (t : PatternTable) (n : String) : t.get? n = t.entries.lookup n := by
  unfold get?
  cases place : t.index.lookup n with
  | none => rw [lookup_eq_none_of_not_mem (not_mem_names_of_lookup place)]; rfl
  | some i =>
    obtain ⟨⟨_, value⟩, here, rfl⟩ := Option.map_eq_some_iff.mp ((t.indexed n i).mp place)
    rw [lookup_of_mem t.nodup_names (List.mem_of_getElem? here)]
    simp only [Option.bind_eq_bind, Option.bind_some, here]
    rfl

/-- The entries change as those of any list of named values to which a value is written. -/
theorem entries_insert (t : PatternTable) (name value : String) :
    (t.insert name value).entries = writeNamed name value t.entries := by
  unfold insert
  split
  next i place => exact (writeNamed_of_place t.nodup_names ((t.indexed name i).mp place)).symm
  next new => exact (writeNamed_of_new (not_mem_names_of_lookup new)).symm

/-- A pattern is found under the name that it was declared under last. -/
theorem get?_insert (name value : String) :
    (t.insert name value).get? n = if n = name then some value else t.get? n := by
  rw [get?_eq_lookup, get?_eq_lookup, entries_insert, lookup_writeNamed]

/-! ## Last values -/

/-- The later entries count before the first one. -/
theorem lastValue?_cons (entry : Document.Table) :
    lastValue? (entry :: entries) n = (lastValue? entries n).or
      (if textField? entry "name" = some n then textField? entry "value" else none) := by
  unfold lastValue?
  rw [List.reverse_cons, List.findSome?_append, List.findSome?_singleton]

/-- Patterns that are declared last count before those that there were. -/
theorem declare_yields {cs : List (Answered S P L)} {r : Setup PatternTable}
    (h : (t.declare entries).Yields cs r) :
    cs = [] ∧ ((∃ t', r = .ok t' ∧ (∀ e ∈ entries, Declares e) ∧
        ∀ n, t'.get? n = (lastValue? entries n).or (t.get? n)) ∨
      (∃ e, r = .error e) ∧ ¬∀ e ∈ entries, Declares e) := by
  induction entries generalizing t cs with
  | nil =>
    obtain ⟨rfl, rfl⟩ := Plan.yields_pure.mp h
    exact ⟨rfl, .inl ⟨t, rfl, nofun, fun _ => rfl⟩⟩
  | cons entry entries ih =>
    unfold declare at h
    rcases Plan.yields_ofSetup_bind h with ⟨e, hname, rfl, rfl⟩ | ⟨name, hname, afterName⟩
    · refine ⟨rfl, .inr ⟨⟨e, rfl⟩, fun all => ?_⟩⟩
      obtain ⟨name, value, named, -⟩ := all entry List.mem_cons_self
      rw [Document.required_eq_ok.mpr named] at hname
      cases hname
    rcases Plan.yields_ofSetup_bind afterName with ⟨e, hvalue, rfl, rfl⟩ | ⟨value, hvalue, afterValue⟩
    · refine ⟨rfl, .inr ⟨⟨e, rfl⟩, fun all => ?_⟩⟩
      obtain ⟨name, value, -, valued⟩ := all entry List.mem_cons_self
      rw [Document.required_eq_ok.mpr valued] at hvalue
      cases hvalue
    have named := Document.required_eq_ok.mp hname
    have valued := Document.required_eq_ok.mp hvalue
    have rest : ((t.insert name value).declare entries).Yields cs r := by
      split at afterValue
      · exact Plan.yields_report_bind afterValue
      · exact afterValue
    obtain ⟨rfl, ⟨t', rfl, all, values⟩ | ⟨failed, faulty⟩⟩ := ih rest
    · refine ⟨rfl, .inl ⟨t', rfl, List.forall_mem_cons.mpr ⟨⟨name, value, named, valued⟩, all⟩, ?_⟩⟩
      intro n
      rw [values, get?_insert, lastValue?_cons, Option.or_assoc,
        Document.textField?_eq_some.mpr named, Document.textField?_eq_some.mpr valued]
      by_cases same : n = name
      · rw [if_pos same, if_pos (by rw [same]), Option.some_or]
      · rw [if_neg same, if_neg (by simpa using fun here => same here.symm), Option.none_or]
    · exact ⟨rfl, .inr ⟨failed, fun all => faulty fun e mem => all e (List.mem_cons_of_mem _ mem)⟩⟩

/-- The document has a section that is a list of entries, or does not have it. -/
def Declared (doc : Document.Table) : Prop :=
  (∃ found, Document.tableArray doc "pattern" = .ok found) ∧
    ∀ e ∈ entriesOf doc "pattern", Declares e

/-- The patterns of a document ask for nothing. They are there when all of them are declared, and
every name then has its last value. -/
theorem ofDocument_yields {doc : Document.Table} {cs : List (Answered S P L)}
    {r : Setup PatternTable} (h : (ofDocument doc).Yields cs r) :
    cs = [] ∧ ((∃ t, r = .ok t ∧ Declared doc ∧
        ∀ n, t.get? n = lastValue? (entriesOf doc "pattern") n) ∨
      (∃ e, r = .error e) ∧ ¬Declared doc) := by
  unfold ofDocument at h
  rcases Plan.yields_ofSetup_bind h with ⟨e, section_, rfl, rfl⟩ | ⟨found, section_, afterSection⟩
  · refine ⟨rfl, .inr ⟨⟨e, rfl⟩, fun declared => ?_⟩⟩
    obtain ⟨found, hfound⟩ := declared.1
    rw [section_] at hfound
    cases hfound
  · cases found with
    | none =>
      obtain ⟨rfl, rfl⟩ := Plan.yields_pure.mp afterSection
      have none := Document.entriesOf_eq_nil section_
      refine ⟨rfl, .inl ⟨empty, rfl, ⟨⟨_, section_⟩, ?_⟩, fun n => ?_⟩⟩
      · rw [none]
        exact nofun
      · rw [none]
        rfl
    | some entries =>
      unfold Declared
      rw [Document.entriesOf_eq section_]
      rcases Plan.yields_bind.mp afterSection with ⟨e, failed, rfl⟩ | ⟨t, first, rest, declared, after, rfl⟩
      · obtain ⟨rfl, ⟨_, absurd, -⟩ | ⟨-, faulty⟩⟩ := declare_yields failed
        · cases absurd
        · exact ⟨rfl, .inr ⟨⟨e, rfl⟩, fun all => faulty all.2⟩⟩
      · obtain ⟨rfl, ⟨t', same, all, values⟩ | ⟨⟨_, absurd⟩, -⟩⟩ := declare_yields declared
        · cases same
          have last := Plan.yields_report_bind after
          obtain ⟨rfl, rfl⟩ := Plan.yields_pure.mp last
          refine ⟨rfl, .inl ⟨t, rfl, ⟨⟨_, section_⟩, all⟩, fun n => ?_⟩⟩
          rw [values]
          exact Option.or_none
        · cases absurd

/-! ## No calls -/

/-- Declaring patterns makes no call, so it obeys every rule. -/
theorem declare_obeys (rule : CallRule S P L) (t : PatternTable) (entries : List Document.Table)
    (before : List (Answered S P L)) :
    (t.declare entries : Plan S P L PatternTable).Obeys rule before fun _ after =>
      after = before := by
  induction entries generalizing t with
  | nil => rfl
  | cons entry entries ih =>
    simp only [declare, Plan.meets_bind, Plan.obeys_ofSetup]
    intro name _ value _
    cases (t.get? name).isSome with
    | false => exact ih _
    | true => exact ih _

/-- The patterns of a document obey any rule, even one that allows no call. -/
theorem ofDocument_obeys (rule : CallRule S P L) (doc : Document.Table)
    (before : List (Answered S P L)) :
    (ofDocument doc : Plan S P L PatternTable).Obeys rule before fun _ after =>
      after = before := by
  simp only [ofDocument, Plan.meets_bind, Plan.obeys_ofSetup]
  intro found _
  cases found with
  | none => rfl
  | some entries =>
    simp only [Plan.meets_bind]
    exact declare_obeys rule _ entries before

end LogTopology.PatternTable
