import LogTopology.Proofs.Overlay.Layers
import LogTopology.Proofs.Overlay.Merge
import LogTopology.Proofs.Setup
/-!
# Merges that stop

Merging a document takes one section after the other and gives up at the first that is at fault: the
overlay or the base has something else than an array of tables there, or the base has the section and
an entry of the overlay has no name. Nothing is taken back. `SectionLeft` tells what a section has
become and how merging it has ended, one rule for each way, and `merge_stops_at_first_fault` puts the
sections together: a merge fails exactly when some section is at fault, and then everything before
the fault is merged and everything behind it is as it was, down to the entries of one section.

Merged entries are told by `layAll`, without the reports on the way.

The induction is on the sections in their order (`mergeSections_left`), and on the entries within
one (`mergeEntries_of_nameless`). Sections do not reach one another, so what is at fault in a
section can be told from the two documents as they were given (`Faulty`), and whether a merge fails
does not depend on what it has done before the fault.
-/

namespace LogTopology.Overlay

open Document

/-! ## Entries -/

section Entries

variable {base front overlay : List Table} {e : Table} {name : String}

/-- The first entry is laid before the others are merged. -/
theorem mergeEntries_cons (key : String) (named : entryName? e = some name)
    (base overlay : List Table) :
    (mergeEntries key base (e :: overlay)).result = (mergeEntries key (lay base e) overlay).result ∧
      (mergeEntries key base (e :: overlay)).outcome =
        (mergeEntries key (lay base e) overlay).outcome := by
  by_cases old : base.any (isNamed name)
  · simp only [mergeEntries, lay, named, old, if_true, and_self]
  · simp only [mergeEntries, lay, named, old, Bool.false_eq_true, if_false, and_self]

/-- Entries with names are laid, and merging goes on behind them. -/
theorem mergeEntries_append (key : String) (named : ∀ e ∈ front, (entryName? e).isSome)
    (base rest : List Table) :
    (mergeEntries key base (front ++ rest)).result =
        (mergeEntries key (layAll base front) rest).result ∧
      (mergeEntries key base (front ++ rest)).outcome =
        (mergeEntries key (layAll base front) rest).outcome := by
  induction front generalizing base with
  | nil => exact ⟨rfl, rfl⟩
  | cons e front ih =>
    obtain ⟨here, named⟩ := List.forall_mem_cons.mp named
    obtain ⟨name, hname⟩ := Option.isSome_iff_exists.mp here
    obtain ⟨result, outcome⟩ := mergeEntries_cons key hname base (front ++ rest)
    rw [List.cons_append, result, outcome]
    exact ih named (lay base e)

/-- Entries with names are merged to the end. -/
theorem mergeEntries_of_named (key : String) (named : ∀ e ∈ overlay, (entryName? e).isSome)
    (base : List Table) :
    (mergeEntries key base overlay).result = layAll base overlay ∧
      (mergeEntries key base overlay).outcome = .ok () := by
  have all := mergeEntries_append key named base []
  rw [List.append_nil] at all
  exact all

/-- The merge of entries stops at the first one without a name, with those before it laid. -/
theorem mergeEntries_of_nameless (key : String) (named : ∀ e ∈ front, (entryName? e).isSome)
    (nameless : entryName? e = none) (base back : List Table) :
    (mergeEntries key base (front ++ e :: back)).result = layAll base front ∧
      (mergeEntries key base (front ++ e :: back)).outcome = .error (.namelessOverride key) := by
  obtain ⟨result, outcome⟩ := mergeEntries_append key named base (e :: back)
  rw [result, outcome]
  simp only [mergeEntries, nameless, and_self]

/-- Entries all have names, or there is a first one that has none. -/
theorem named_or_first_nameless (overlay : List Table) :
    (∀ e ∈ overlay, (entryName? e).isSome) ∨
      ∃ front e back, overlay = front ++ e :: back ∧ (∀ x ∈ front, (entryName? x).isSome) ∧
        entryName? e = none := by
  cases found : overlay.find? fun e => (entryName? e).isNone with
  | none =>
    left
    intro e mem
    have some := List.find?_eq_none.mp found e mem
    rwa [Bool.not_eq_true, Option.isNone_eq_false_iff] at some
  | some e =>
    obtain ⟨nameless, front, back, rfl, named⟩ := List.find?_eq_some_iff_append.mp found
    refine .inr ⟨front, e, back, rfl, fun x mem => ?_, Option.isNone_iff_eq_none.mp nameless⟩
    have some := named x mem
    rwa [Bool.not_eq_true', Option.isNone_eq_false_iff] at some

end Entries

/-! ## Sections -/

variable {base overlay result : Table} {key : String}

/-- A section of the overlay is no array of tables, there or in the base. -/
inductive Misshapen (base overlay : Table) (key : String) : Prop where
  | overlay {v : Value} (given : overlay.get? key = some v) (misshapen : ¬ v.IsTableArray)
  | base {v w : Value} (given : overlay.get? key = some v) (present : base.get? key = some w)
      (misshapen : ¬ w.IsTableArray)

/-- What keeps a section from being merged. -/
inductive Faulty (base overlay : Table) (key : String) : Prop where
  | misshapen (fault : Misshapen base overlay key)
  | nameless {entries : List Table} {w : Value} {e : Table}
      (given : overlay.get? key = some (.array (entries.map .table)))
      (present : base.get? key = some w) (mem : e ∈ entries) (nameless : entryName? e = none)

/-- A section that has been merged: what the base had, what the overlay has, what is there now. -/
inductive SectionLaid : Option Value → Option Value → Option Value → Prop where
  | kept (own : Option Value) : SectionLaid own none own
  | adopted (entries : List Table) :
      SectionLaid none (some (.array (entries.map .table))) (some (.array (entries.map .table)))
  | merged (own : List Table) {entries : List Table}
      (named : ∀ e ∈ entries, (entryName? e).isSome) :
      SectionLaid (some (.array (own.map .table))) (some (.array (entries.map .table)))
        (some (.array ((layAll own entries).map .table)))

/-- A section that was merged was not at fault. -/
theorem SectionLaid.faultless {now : Option Value}
    (laid : SectionLaid (base.get? key) (overlay.get? key) now) : ¬ Faulty base overlay key := by
  intro fault
  -- What the section was is an index of `laid`, and has to be a variable before cases are taken.
  generalize here : base.get? key = own at laid
  generalize there : overlay.get? key = lain at laid
  cases laid with
  | kept =>
    rcases fault with (⟨given, _⟩ | ⟨given, _, _⟩) | ⟨given, _, _, _⟩ <;>
      cases there.symm.trans given
  | adopted entries =>
    rcases fault with (⟨given, misshapen⟩ | ⟨_, present, _⟩) | ⟨_, present, _, _⟩
    · exact misshapen ⟨entries, Option.some.inj (given.symm.trans there)⟩
    · cases here.symm.trans present
    · cases here.symm.trans present
  | merged own named =>
    rcases fault with (⟨given, misshapen⟩ | ⟨_, present, misshapen⟩) | ⟨given, _, mem, nameless⟩
    · exact misshapen ⟨_, Option.some.inj (given.symm.trans there)⟩
    · exact misshapen ⟨own, Option.some.inj (present.symm.trans here)⟩
    · -- The two lists of entries are one, as both are what is read of the section.
      cases (tableArray_eq_ok_some.mpr there).symm.trans (tableArray_eq_ok_some.mpr given)
      have isSome := named _ mem
      rw [nameless] at isSome
      cases isSome

/-- What merging has left of a section, and how it has ended. -/
inductive SectionLeft (base overlay result : Table) (key : String) : Setup Unit → Prop where
  | done (laid : SectionLaid (base.get? key) (overlay.get? key) (result.get? key)) :
      SectionLeft base overlay result key (.ok ())
  | misshapen (fault : Misshapen base overlay key) (same : result.get? key = base.get? key) :
      SectionLeft base overlay result key (.error (.notTableArray key))
  /-- The entries before the first one without a name are merged, and no others. -/
  | nameless {own front back : List Table} {e : Table}
      (present : base.get? key = some (.array (own.map .table)))
      (given : overlay.get? key = some (.array ((front ++ e :: back).map .table)))
      (named : ∀ x ∈ front, (entryName? x).isSome) (nameless : entryName? e = none)
      (laid : result.get? key = some (.array ((layAll own front).map .table))) :
      SectionLeft base overlay result key (.error (.namelessOverride key))

namespace SectionLeft

/-- What is left of a section is told by the values under its key. -/
theorem congr {base' result' : Table} {outcome : Setup Unit}
    (sameBase : base'.get? key = base.get? key) (sameResult : result'.get? key = result.get? key)
    (left : SectionLeft base overlay result key outcome) :
    SectionLeft base' overlay result' key outcome := by
  cases left with
  | done laid =>
    rw [← sameBase, ← sameResult] at laid
    exact .done laid
  | misshapen fault same =>
    refine .misshapen ?_ (by rw [sameResult, same, sameBase])
    cases fault with
    | overlay given misshapen => exact .overlay given misshapen
    | base given present misshapen => exact .base given (sameBase.trans present) misshapen
  | nameless present given named nameless laid =>
    exact .nameless (sameBase.trans present) given named nameless (sameResult.trans laid)

/-- A section whose merge has failed was at fault. -/
theorem faulty {e : SetupError} (left : SectionLeft base overlay result key (.error e)) :
    Faulty base overlay key := by
  cases left with
  | misshapen fault _ => exact .misshapen fault
  | nameless present given _ nameless _ =>
    exact .nameless given present (List.mem_append_right _ List.mem_cons_self) nameless

/-- A section whose merge is done has been laid. -/
theorem laid (left : SectionLeft base overlay result key (.ok ())) :
    SectionLaid (base.get? key) (overlay.get? key) (result.get? key) := by
  cases left with
  | done laid => exact laid

end SectionLeft

/-- What merging leaves of its section. -/
theorem mergeSection_left (base overlay : Table) (key : String) :
    SectionLeft base overlay (mergeSection base overlay key).result key
      (mergeSection base overlay key).outcome := by
  unfold mergeSection
  -- In the order of the merge: the overlay's section, the base's, and the names of the entries.
  cases listed : tableArray overlay key with
  | error e =>
    obtain ⟨rfl, v, given, misshapen⟩ := misshapen_of_tableArray listed
    exact .misshapen (.overlay given misshapen) rfl
  | ok found =>
  cases found with
  | none =>
    refine .done ?_
    rw [tableArray_eq_ok_none.mp listed]
    exact .kept _
  | some entries =>
  have given := tableArray_eq_ok_some.mp listed
  cases owned : tableArray base key with
  | error e =>
    obtain ⟨rfl, w, present, misshapen⟩ := misshapen_of_tableArray owned
    exact .misshapen (.base given present misshapen) rfl
  | ok found =>
  cases found with
  | none =>
    refine .done ?_
    rw [tableArray_eq_ok_none.mp owned, given, get?_setEntries, if_pos rfl]
    exact .adopted entries
  | some own =>
    have present := tableArray_eq_ok_some.mp owned
    rcases named_or_first_nameless entries with named | ⟨front, e, back, rfl, named, nameless⟩
    · obtain ⟨laid, outcome⟩ := mergeEntries_of_named key named own
      simp only [laid, outcome]
      refine .done ?_
      rw [present, given, get?_setEntries, if_pos rfl]
      exact .merged own named
    · obtain ⟨laid, outcome⟩ := mergeEntries_of_nameless key named nameless own back
      simp only [laid, outcome]
      exact .nameless present given named nameless (by simp only [get?_setEntries, if_true])

/-! ## Documents -/

/-- What a merge that has stopped at a section has left of the sections it was to merge. -/
structure StoppedAt (base overlay result : Table) (before : List String) (key : String)
    (after : List String) (e : SetupError) : Prop where
  merged : ∀ k ∈ before, SectionLaid (base.get? k) (overlay.get? k) (result.get? k)
  stopped : SectionLeft base overlay result key (.error e)
  untouched : ∀ k ∈ after, result.get? k = base.get? k

/-- All sections have been merged, or those up to one that has stopped the merge. -/
inductive SectionsLeft (base overlay result : Table) (keys : List String) : Setup Unit → Prop where
  | done (merged : ∀ k ∈ keys, SectionLaid (base.get? k) (overlay.get? k) (result.get? k)) :
      SectionsLeft base overlay result keys (.ok ())
  | stopped {before after : List String} {key : String} {e : SetupError}
      (split : keys = before ++ key :: after)
      (place : StoppedAt base overlay result before key after e) :
      SectionsLeft base overlay result keys (.error e)

/-- A section that stops the merge is the last one. -/
theorem mergeSections_cons_of_error {e : SetupError}
    (stops : (mergeSection base overlay key).outcome = .error e) (keys : List String) :
    (mergeSections base overlay (key :: keys)).result = (mergeSection base overlay key).result ∧
      (mergeSections base overlay (key :: keys)).outcome = .error e := by
  simp only [mergeSections, stops, and_self]

/-- A section that is merged leaves the others to be merged from there. -/
theorem mergeSections_cons_of_ok (done : (mergeSection base overlay key).outcome = .ok ())
    (keys : List String) :
    (mergeSections base overlay (key :: keys)).result =
        (mergeSections (mergeSection base overlay key).result overlay keys).result ∧
      (mergeSections base overlay (key :: keys)).outcome =
        (mergeSections (mergeSection base overlay key).result overlay keys).outcome := by
  simp only [mergeSections, done, and_self]

/-- A section merged ahead of others, which leave it alone. -/
theorem SectionsLeft.cons {middle : Table} {keys : List String} {outcome : Setup Unit}
    (first : SectionLaid (base.get? key) (overlay.get? key) (result.get? key))
    (same : ∀ k ∈ keys, middle.get? k = base.get? k)
    (rest : SectionsLeft middle overlay result keys outcome) :
    SectionsLeft base overlay result (key :: keys) outcome := by
  cases rest with
  | done merged =>
    refine .done (List.forall_mem_cons.mpr ⟨first, fun k mem => ?_⟩)
    rw [← same k mem]
    exact merged k mem
  | stopped split place =>
    subst split
    refine .stopped (List.cons_append ..).symm ⟨?_, ?_, fun k mem => ?_⟩
    · refine List.forall_mem_cons.mpr ⟨first, fun k mem => ?_⟩
      rw [← same k (List.mem_append_left _ mem)]
      exact place.merged k mem
    · refine place.stopped.congr (same _ ?_).symm rfl
      exact List.mem_append_right _ List.mem_cons_self
    · rw [place.untouched k mem, same k (List.mem_append_right _ (List.mem_cons_of_mem _ mem))]

/-- What merging leaves of its sections, which do not reach one another, and of everything else. -/
theorem mergeSections_left (overlay : Table) {keys : List String} (distinct : keys.Nodup)
    (base : Table) :
    SectionsLeft base overlay (mergeSections base overlay keys).result keys
        (mergeSections base overlay keys).outcome ∧
      ∀ k ∉ keys, (mergeSections base overlay keys).result.get? k = base.get? k := by
  -- The later sections are merged into what the first has left, so the base changes on the way.
  induction keys generalizing base with
  | nil => exact ⟨.done fun k mem => absurd mem List.not_mem_nil, fun _ _ => rfl⟩
  | cons key keys ih =>
    obtain ⟨fresh, distinct⟩ := List.nodup_cons.mp distinct
    have left := mergeSection_left base overlay key
    have others {k : String} (outside : k ≠ key) :
        (mergeSection base overlay key).result.get? k = base.get? k := get?_mergeSection_of_ne outside
    have apart : ∀ k ∈ keys, k ≠ key := fun k mem same => fresh (same ▸ mem)
    cases first : (mergeSection base overlay key).outcome with
    | error e =>
      rw [first] at left
      obtain ⟨result, outcome⟩ := mergeSections_cons_of_error first keys
      rw [result, outcome]
      constructor
      · refine .stopped (List.nil_append _).symm ⟨fun k mem => absurd mem List.not_mem_nil, left, ?_⟩
        exact fun k mem => others (apart k mem)
      · exact fun k outside => others (List.ne_of_not_mem_cons outside)
    | ok _ =>
      rw [first] at left
      obtain ⟨result, outcome⟩ := mergeSections_cons_of_ok first keys
      rw [result, outcome]
      obtain ⟨rest, untouched⟩ := ih distinct (mergeSection base overlay key).result
      constructor
      · exact rest.cons (left.congr rfl (untouched key fresh)).laid fun k mem => others (apart k mem)
      · intro k outside
        rw [untouched k (List.not_mem_of_not_mem_cons outside),
          others (List.ne_of_not_mem_cons outside)]

/-- The sections of a document, when it has been merged and when merging it has stopped. -/
theorem merge_left (base overlay : Table) :
    SectionsLeft base overlay (merge base overlay).result sections (merge base overlay).outcome ∧
      ∀ k ∉ sections, (merge base overlay).result.get? k = base.get? k :=
  mergeSections_left overlay (by decide) base

/-- A merge is done just when no section is at fault. -/
theorem merge_ok_iff (base overlay : Table) :
    (merge base overlay).outcome = .ok () ↔ ∀ key ∈ sections, ¬ Faulty base overlay key := by
  obtain ⟨left, _⟩ := merge_left base overlay
  generalize (merge base overlay).outcome = outcome at left ⊢
  cases left with
  | done merged => exact iff_of_true rfl fun key mem => (merged key mem).faultless
  | stopped split place =>
    refine iff_of_false Setup.error_ne_ok fun faultless => ?_
    refine faultless _ ?_ place.stopped.faulty
    rw [split]
    exact List.mem_append_right _ List.mem_cons_self

/-- **A merge fails exactly when a section is at fault, and stops at the first that is.** The
sections before it are merged, those behind it and everything outside the sections are as they were,
and of the section itself `SectionLeft` tells which entries were laid. -/
theorem merge_stops_at_first_fault (base overlay : Table) :
    ((∃ e, (merge base overlay).outcome = .error e) ↔
        ∃ key ∈ sections, Faulty base overlay key) ∧
      ∀ e, (merge base overlay).outcome = .error e →
        ∃ before key after, sections = before ++ key :: after ∧
          (∀ k ∈ before, ¬ Faulty base overlay k) ∧ Faulty base overlay key ∧
          StoppedAt base overlay (merge base overlay).result before key after e ∧
          ∀ k ∉ sections, (merge base overlay).result.get? k = base.get? k := by
  constructor
  · rw [← not_iff_not, not_exists]
    constructor
    · intro fine
      have done : (merge base overlay).outcome = .ok () := by
        cases ended : (merge base overlay).outcome with
        | error e => exact absurd ended (fine e)
        | ok _ => rfl
      rintro ⟨key, mem, fault⟩
      exact (merge_ok_iff base overlay).mp done key mem fault
    · intro faultless e ended
      have done := (merge_ok_iff base overlay).mpr fun key mem fault => faultless ⟨key, mem, fault⟩
      exact Setup.error_ne_ok (ended.symm.trans done)
  · intro e ended
    obtain ⟨left, untouched⟩ := merge_left base overlay
    rw [ended] at left
    cases left with
    | stopped split place =>
      refine ⟨_, _, _, split, fun k mem => ?_, place.stopped.faulty, place, untouched⟩
      exact (place.merged k mem).faultless

/-- Of three entries of a section the second has no name: the first is laid, the third is not, and
the logger section, which would not merge either, is not looked at. -/
theorem nameless_entry_stops :
    let named (name : String) (fields : Table) : Value := .table (("name", .text name) :: fields)
    let base : Table :=
      [("pattern", .array [named "p" [], named "q" []]), ("sink", .array [named "a" []]),
        ("logger", .text "main"), ("global_pattern", .text "%v")]
    let overlay : Table :=
      [("sink", .array [named "b" []]),
        ("pattern", .array [named "p" [("pattern", .text "%l")],
          .table [("pattern", .text "%n")], named "q" [("pattern", .text "%t")]]),
        ("logger", .array [named "main" []]), ("global_pattern", .text "%l")]
    (merge base overlay).outcome = .error (.namelessOverride "pattern") ∧
      (merge base overlay).result =
        [("pattern", .array [named "p" [("pattern", .text "%l")], named "q" []]),
          ("sink", .array [named "a" [], named "b" []]), ("logger", .text "main"),
          ("global_pattern", .text "%v")] ∧
      ∃ before key after, sections = before ++ key :: after ∧
        (∀ k ∈ before, ¬ Faulty base overlay k) ∧ Faulty base overlay key ∧
        StoppedAt base overlay (merge base overlay).result before key after
          (.namelessOverride "pattern") ∧
        ∀ k ∉ sections, (merge base overlay).result.get? k = base.get? k := by
  intro named base overlay
  exact ⟨rfl, rfl, (merge_stops_at_first_fault base overlay).2 _ rfl⟩

end LogTopology.Overlay
