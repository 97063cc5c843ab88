import LogTopology.Proofs.Overlay.Stops
/-!
# Laws of merging

Merging an overlay again changes nothing, and two overlays may be merged into one before they are
merged into a document. Both laws hold section by section (`SectionLaid.again`,
`SectionLaid.layers`) and come down to the laws of laying entries; the sections are put together by
what a merge leaves of each.

A section that the document lacks is adopted as it is, with entries that share a name or have none.
That is where the laws end: such entries must have distinct names, those of the lower layer in every
section. The upper layer and the document may repeat theirs.

Putting two overlays together first may put a section that only one of them has in another place
among the keys of the document. The second law leaves the order of the keys out for that reason.
-/

namespace LogTopology.Overlay

open Document

variable {base overlay first second : Table} {key : String}

/-! ## Sections -/

/-- What holds of the entries of a section, if it is there and has entries. -/
def EntriesSatisfy (P : List Table → Prop) (section? : Option Value) : Prop :=
  ∀ entries : List Table, section? = some (.array (entries.map .table)) → P entries

/-- What holds of the entries of a section holds of the section. -/
theorem entriesSatisfy_of {P : List Table → Prop} (holds : P (entriesOf overlay key)) :
    EntriesSatisfy P (overlay.get? key) := by
  intro entries given
  rwa [entriesOf_eq (tableArray_eq_ok_some.mpr given)] at holds

/-- Arrays of tables with the same tables have the same entries. -/
theorem map_table_inj {own other : List Table}
    (same : some (Value.array (own.map .table)) = some (.array (other.map .table))) : own = other :=
  List.map_injective_iff.mpr (fun _ _ h => Value.table.inj h)
    (Value.array.inj (Option.some.inj same))

namespace SectionLaid

variable {own lain now now' one two middle : Option Value} {entries : List Table}

/-- A section that is there keeps its entries, or has others laid over them. -/
theorem of_entries (laid : SectionLaid (some (.array (entries.map .table))) lain now) :
    (lain = none ∧ now = some (.array (entries.map .table))) ∨
      ∃ more : List Table, lain = some (.array (more.map .table)) ∧
        (∀ e ∈ more, (entryName? e).isSome) ∧
        now = some (.array ((layAll entries more).map .table)) := by
  generalize here : some (Value.array (entries.map .table)) = own at laid
  cases laid with
  | kept => exact .inl ⟨rfl, rfl⟩
  | adopted more => cases here
  | merged own named =>
    rw [map_table_inj here]
    exact .inr ⟨_, rfl, named, rfl⟩

/-- A section that can be laid can be adopted. -/
theorem adoptable (laid : SectionLaid own lain now) : SectionLaid none lain lain := by
  cases laid with
  | kept => exact .kept none
  | adopted entries => exact .adopted entries
  | merged own named => exact .adopted _

/-- What a section becomes depends on the two sections alone. -/
theorem unique (laid : SectionLaid own lain now) (laid' : SectionLaid own lain now') :
    now = now' := by
  cases laid with
  | kept own =>
    cases laid'
    rfl
  | adopted entries =>
    generalize there : some (Value.array (entries.map .table)) = lain at laid'
    cases laid' with
    | kept => cases there
    | adopted => rfl
  | merged own named =>
    obtain ⟨absent, _⟩ | ⟨more, there, _, same⟩ := laid'.of_entries
    · cases absent
    · rw [same, map_table_inj there]

/-- Laying a section over what has become of it changes nothing. -/
theorem again (laid : SectionLaid own lain now) (keyed : EntriesSatisfy (∀ e ∈ ·, e.Keyed) lain)
    (distinct : own = none → EntriesSatisfy DistinctlyNamed lain) : SectionLaid now lain now := by
  cases laid with
  | kept own => exact .kept own
  | adopted entries =>
    obtain ⟨named, nodup⟩ := distinct rfl entries rfl
    have same := layAll_of_subset (layer_of_named (keyed entries rfl) named) nodup
      (List.Subset.refl entries)
    have twice := SectionLaid.merged entries named
    rwa [same] at twice
  | @merged own entries named =>
    have same := layAll_again (layer_of_named (keyed entries rfl) named) own
    have twice := SectionLaid.merged (layAll own entries) named
    rwa [same] at twice

/-- Two sections laid one after the other may be laid over each other first. -/
theorem layers (below : SectionLaid own one middle) (above : SectionLaid middle two now)
    (distinct : EntriesSatisfy DistinctlyNamed one)
    (keyed : EntriesSatisfy (∀ e ∈ ·, e.Keyed) one)
    (keyedUpper : EntriesSatisfy (∀ e ∈ ·, e.Keyed) two) :
    ∃ both, SectionLaid one two both ∧ SectionLaid own both now := by
  cases below with
  | kept own => exact ⟨two, above.adoptable, above⟩
  | adopted entries =>
    -- What was adopted is the lower layer itself, so both layers together are what there is now.
    refine ⟨now, above, ?_⟩
    obtain ⟨_, rfl⟩ | ⟨more, _, _, rfl⟩ := above.of_entries
    · exact .adopted entries
    · exact .adopted (layAll entries more)
  | @merged own entries named =>
    obtain ⟨rfl, rfl⟩ | ⟨more, rfl, namedUpper, rfl⟩ := above.of_entries
    · exact ⟨_, .kept _, .merged own named⟩
    · have layer := layer_of_named (keyed entries rfl) named
      have upper := layer_of_named (keyedUpper more rfl) namedUpper
      refine ⟨_, .merged entries namedUpper, ?_⟩
      rw [← layAll_layAll layer (distinct entries rfl).distinct upper]
      refine .merged own fun e mem => ?_
      obtain ⟨name, label⟩ := layer.layAll upper e mem
      rw [label.named]
      rfl

end SectionLaid

/-! ## Documents -/

/-- Merging a section leaves the document or sets this section, and nothing else. -/
theorem mergeSection_result (base overlay : Table) (key : String) :
    (mergeSection base overlay key).result = base ∨
      ∃ entries, (mergeSection base overlay key).result = setEntries base key entries := by
  unfold mergeSection
  split
  · exact .inl rfl
  · exact .inl rfl
  · split
    · exact .inl rfl
    · exact .inr ⟨_, rfl⟩
    · exact .inr ⟨_, rfl⟩

/-- A merge that is done has laid every section. -/
theorem merge_laid (done : (merge base overlay).outcome = .ok ()) {key : String}
    (mem : key ∈ sections) :
    SectionLaid (base.get? key) (overlay.get? key) ((merge base overlay).result.get? key) := by
  obtain ⟨left, _⟩ := merge_left base overlay
  rw [done] at left
  cases left with
  | done merged => exact merged key mem

/-- A merge is done when every section can be laid. -/
theorem merge_ok_of_laid
    (laid : ∀ key ∈ sections, ∃ now, SectionLaid (base.get? key) (overlay.get? key) now) :
    (merge base overlay).outcome = .ok () := by
  rw [merge_ok_iff]
  intro key mem
  obtain ⟨now, laid⟩ := laid key mem
  exact laid.faultless

/-- A section over which nothing new is laid leaves the document as it is. -/
theorem mergeSection_of_same (laid : SectionLaid (base.get? key) (overlay.get? key) (base.get? key)) :
    (mergeSection base overlay key).result = base ∧
      (mergeSection base overlay key).outcome = .ok () := by
  have left := mergeSection_left base overlay key
  cases ended : (mergeSection base overlay key).outcome with
  | error e =>
    rw [ended] at left
    exact absurd left.faulty laid.faultless
  | ok _ =>
    rw [ended] at left
    refine ⟨?_, rfl⟩
    -- The place of the section among the keys is not told by what it has become.
    obtain same | ⟨entries, written⟩ := mergeSection_result base overlay key
    · exact same
    · have found := left.laid.unique laid
      rw [written, get?_setEntries, if_pos rfl] at found
      rw [written]
      exact writeNamed_of_lookup found.symm

/-- Laying sections that come out as they were leaves the document. -/
theorem mergeSections_of_same {keys : List String}
    (laid : ∀ key ∈ keys, SectionLaid (base.get? key) (overlay.get? key) (base.get? key)) :
    (mergeSections base overlay keys).result = base ∧
      (mergeSections base overlay keys).outcome = .ok () := by
  induction keys with
  | nil => exact ⟨rfl, rfl⟩
  | cons key keys ih =>
    obtain ⟨here, laid⟩ := List.forall_mem_cons.mp laid
    obtain ⟨same, done⟩ := mergeSection_of_same here
    obtain ⟨result, outcome⟩ := mergeSections_cons_of_ok done keys
    rw [result, outcome, same]
    exact ih laid

/-- Merging sections leaves the keys of a document distinct. -/
theorem keyed_mergeSections (keyed : base.Keyed) (overlay : Table) (keys : List String) :
    (mergeSections base overlay keys).result.Keyed := by
  induction keys generalizing base with
  | nil => exact keyed
  | cons key keys ih =>
    have here : (mergeSection base overlay key).result.Keyed := by
      obtain same | ⟨entries, written⟩ := mergeSection_result base overlay key
      · rwa [same]
      · rw [written]
        exact keyed.insert
    cases ended : (mergeSection base overlay key).outcome with
    | error e => rwa [(mergeSections_cons_of_error ended keys).1]
    | ok _ =>
      rw [(mergeSections_cons_of_ok ended keys).1]
      exact ih here

/-- **Merging again changes nothing, and layers compose.** An overlay that has been merged can be
merged again, and the document stays exactly as it is. Two overlays that can be merged one after the
other can be merged into one, which leaves the document the same up to the order of its keys. -/
theorem merge_again_and_in_layers :
    (∀ base overlay : Table,
      (∀ key ∈ sections, ∀ e ∈ entriesOf overlay key, e.Keyed) →
      (∀ key ∈ sections, base.get? key = none → DistinctlyNamed (entriesOf overlay key)) →
      (merge base overlay).outcome = .ok () →
      (merge (merge base overlay).result overlay).outcome = .ok () ∧
        (merge (merge base overlay).result overlay).result = (merge base overlay).result) ∧
    ∀ base first second : Table, base.Keyed →
      (∀ key ∈ sections, ∀ e ∈ entriesOf first key, e.Keyed) →
      (∀ key ∈ sections, ∀ e ∈ entriesOf second key, e.Keyed) →
      (∀ key ∈ sections, DistinctlyNamed (entriesOf first key)) →
      (merge base first).outcome = .ok () →
      (merge (merge base first).result second).outcome = .ok () →
      (merge first second).outcome = .ok () ∧
        (merge base (merge first second).result).outcome = .ok () ∧
        (merge (merge base first).result second).result.Perm
          (merge base (merge first second).result).result := by
  constructor
  · intro base overlay keyed distinct done
    have again : ∀ key ∈ sections,
        SectionLaid ((merge base overlay).result.get? key) (overlay.get? key)
          ((merge base overlay).result.get? key) := fun key mem =>
      (merge_laid done mem).again (entriesSatisfy_of (keyed key mem)) fun missing =>
        entriesSatisfy_of (distinct key mem missing)
    obtain ⟨same, outcome⟩ := mergeSections_of_same again
    exact ⟨outcome, same⟩
  · intro base first second hbase keyed keyedUpper distinct done doneUpper
    -- Section by section there is one overlay that does what the two do after each other.
    have layers : ∀ key ∈ sections, ∃ both,
        SectionLaid (first.get? key) (second.get? key) both ∧
          SectionLaid (base.get? key) both
            ((merge (merge base first).result second).result.get? key) := fun key mem =>
      (merge_laid done mem).layers (merge_laid doneUpper mem)
        (entriesSatisfy_of (distinct key mem)) (entriesSatisfy_of (keyed key mem))
        (entriesSatisfy_of (keyedUpper key mem))
    have doneBoth : (merge first second).outcome = .ok () := merge_ok_of_laid fun key mem =>
      (layers key mem).imp fun _ => And.left
    have onto : ∀ key ∈ sections,
        SectionLaid (base.get? key) ((merge first second).result.get? key)
          ((merge (merge base first).result second).result.get? key) := by
      intro key mem
      obtain ⟨both, united, onto⟩ := layers key mem
      rwa [united.unique (merge_laid doneBoth mem)] at onto
    have doneOnto : (merge base (merge first second).result).outcome = .ok () :=
      merge_ok_of_laid fun key mem => ⟨_, onto key mem⟩
    -- The keys stand in different orders, so the documents are compared by what each key holds.
    refine ⟨doneBoth, doneOnto, perm_of_lookup ?_ ?_ fun key => ?_⟩
    · exact keyed_mergeSections (keyed_mergeSections hbase first sections) second sections
    · exact keyed_mergeSections hbase _ sections
    · by_cases mem : key ∈ sections
      · exact (onto key mem).unique (merge_laid doneOnto mem)
      · calc (merge (merge base first).result second).result.get? key
            = (merge base first).result.get? key := (merge_left _ second).2 key mem
          _ = base.get? key := (merge_left base first).2 key mem
          _ = (merge base (merge first second).result).result.get? key :=
              ((merge_left base _).2 key mem).symm

/-- A document with a name that comes twice, and two layers over it: the upper one has a name twice,
and a section that comes to stand in another place when it is put over the lower one first. -/
theorem two_layers_over_repeated_names :
    let named (name : String) (fields : Table) : Value := .table (("name", .text name) :: fields)
    let base : Table :=
      [("sink", .array [named "a" [("level", .text "info")], named "a" []]),
        ("global_pattern", .text "%v")]
    let first : Table :=
      [("logger", .array [named "main" [], named "net" []]),
        ("sink", .array [named "b" [], named "a" [("level", .text "debug")]])]
    let second : Table :=
      [("sink", .array [named "a" [("syslog", .table [])], named "c" [],
        named "a" [("level", .text "warn")]]),
        ("pattern", .array [named "p" [], named "p" []]),
        ("logger", .array [named "main" [("level", .text "error")]])]
    ((merge base first).outcome = .ok () ∧
      (merge (merge base first).result first).outcome = .ok () ∧
      (merge (merge base first).result first).result = (merge base first).result) ∧
    (merge (merge base first).result second).outcome = .ok () ∧
    (merge (merge base first).result second).result.map Prod.fst =
      ["sink", "global_pattern", "logger", "pattern"] ∧
    (merge base (merge first second).result).result.map Prod.fst =
      ["sink", "global_pattern", "pattern", "logger"] ∧
    (merge (merge base first).result second).result.Perm
      (merge base (merge first second).result).result := by
  intro named base first second
  have keyed : ∀ key ∈ sections, ∀ e ∈ entriesOf first key, e.Keyed := by
    unfold Table.Keyed
    decide
  have keyedUpper : ∀ key ∈ sections, ∀ e ∈ entriesOf second key, e.Keyed := by
    unfold Table.Keyed
    decide
  have distinct : ∀ key ∈ sections, DistinctlyNamed (entriesOf first key) := by
    have all : ∀ key ∈ sections, (∀ e ∈ entriesOf first key, (entryName? e).isSome) ∧
        ((entriesOf first key).map entryName?).Nodup := by decide
    exact fun key mem => ⟨(all key mem).1, (all key mem).2⟩
  have hbase : base.Keyed := by
    unfold Table.Keyed
    decide
  have done : (merge base first).outcome = .ok () := rfl
  have doneUpper : (merge (merge base first).result second).outcome = .ok () := rfl
  refine ⟨⟨done, ?_⟩, doneUpper, by decide +kernel, by decide +kernel, ?_⟩
  · exact merge_again_and_in_layers.1 base first keyed (fun key mem _ => distinct key mem) done
  · exact (merge_again_and_in_layers.2 base first second hbase keyed keyedUpper distinct done
      doneUpper).2.2

end LogTopology.Overlay
