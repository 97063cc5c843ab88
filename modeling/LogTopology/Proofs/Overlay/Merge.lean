import LogTopology.Proofs.Document.Field
import LogTopology.Proofs.Overlay.Entries
/-!
# Merging documents

An overlay that is merged without an error has been laid over each of the sections it reaches, and
over nothing else (`merge_overlays`). The sections do not interfere: merging one leaves the others
as they were (`get?_mergeSection_of_ne`).

A section of the document is kept when the overlay does not have it, adopted as it stands when only
the overlay has it, and merged entry by entry when both do (`SectionOverlaid`). An adopted section
is not looked into, so it may hold repeated or nameless entries that a merge would have joined or
refused.

Keys of the overlay that are no section are passed over without a word, and those of the document
stay.
-/

namespace LogTopology.Overlay

open Document

variable {base overlay result : Table} {key : String}

/-- What has become of one section. -/
inductive SectionOverlaid (base overlay result : Table) (key : String) : Prop where
  | kept (absent : overlay.get? key = none) (same : result.get? key = base.get? key)
  | adopted (missing : base.get? key = none) (same : result.get? key = overlay.get? key)
  | merged {own entries all : List Table}
      (hbase : base.get? key = some (.array (own.map .table)))
      (hoverlay : overlay.get? key = some (.array (entries.map .table)))
      (hresult : result.get? key = some (.array (all.map .table)))
      (overlaid : Overlaid own entries all)

/-- What has become of a section is told by the values under its key, before and after. -/
theorem SectionOverlaid.congr {base' result' : Table} (hbase : base'.get? key = base.get? key)
    (hresult : result'.get? key = result.get? key) (h : SectionOverlaid base overlay result key) :
    SectionOverlaid base' overlay result' key := by
  cases h with
  | kept absent same => exact .kept absent (by rw [hresult, same, hbase])
  | adopted missing same => exact .adopted (by rw [hbase, missing]) (by rw [hresult, same])
  | merged own entries all overlaid =>
    exact .merged (hbase.trans own) entries (hresult.trans all) overlaid

/-- Merging one section leaves the others. -/
theorem get?_mergeSection_of_ne {k : String} (other : k ≠ key) :
    (mergeSection base overlay key).result.get? k = base.get? k := by
  unfold mergeSection
  split
  · rfl
  · rfl
  · split
    · rfl
    · rw [get?_setEntries, if_neg other]
    · dsimp only
      rw [get?_setEntries, if_neg other]

/-- A section whose merge is done has been overlaid. -/
theorem mergeSection_overlaid (keyed : ∀ e ∈ entriesOf overlay key, e.Keyed)
    (done : (mergeSection base overlay key).outcome = .ok ()) :
    SectionOverlaid base overlay (mergeSection base overlay key).result key := by
  unfold mergeSection at done ⊢
  cases listed : tableArray overlay key with
  | error e =>
    rw [listed] at done
    cases done
  | ok found =>
  cases found with
  | none => exact .kept (tableArray_eq_ok_none.mp listed) rfl
  | some entries =>
  have hoverlay := tableArray_eq_ok_some.mp listed
  rw [entriesOf_eq listed] at keyed
  rw [listed] at done
  dsimp only at done ⊢
  cases present : tableArray base key with
  | error e =>
    rw [present] at done
    cases done
  | ok found =>
  cases found with
  | none =>
    refine .adopted (tableArray_eq_ok_none.mp present) ?_
    dsimp only
    rw [get?_setEntries, if_pos rfl, hoverlay]
  | some own =>
    rw [present] at done
    refine .merged (tableArray_eq_ok_some.mp present) hoverlay ?_ (mergeEntries_overlaid keyed done)
    dsimp only
    rw [get?_setEntries, if_pos rfl]

/-- Sections that are merged one after the other are overlaid, each from what the document had, and
everything else is as it was. -/
theorem mergeSections_overlaid {keys : List String} (distinct : keys.Nodup)
    (keyed : ∀ key ∈ keys, ∀ e ∈ entriesOf overlay key, e.Keyed)
    (done : (mergeSections base overlay keys).outcome = .ok ()) :
    (∀ key ∈ keys, SectionOverlaid base overlay (mergeSections base overlay keys).result key) ∧
      ∀ key, key ∉ keys → (mergeSections base overlay keys).result.get? key = base.get? key := by
  induction keys generalizing base with
  | nil => exact ⟨nofun, fun _ _ => rfl⟩
  | cons key keys ih =>
    obtain ⟨fresh, distinct⟩ := List.nodup_cons.mp distinct
    obtain ⟨here, later⟩ := List.forall_mem_cons.mp keyed
    unfold mergeSections at done ⊢
    dsimp only at done ⊢
    cases first : (mergeSection base overlay key).outcome with
    | error e =>
      rw [first] at done
      cases done
    | ok _ =>
    rw [first] at done
    dsimp only at done ⊢
    obtain ⟨overlaid, untouched⟩ := ih distinct later done
    constructor
    · refine List.forall_mem_cons.mpr ⟨?_, fun k mem => ?_⟩
      · exact (mergeSection_overlaid here first).congr rfl (untouched key fresh)
      · have other : k ≠ key := fun same => fresh (by rw [← same]; exact mem)
        exact (overlaid k mem).congr (get?_mergeSection_of_ne other).symm rfl
    · intro k outside
      rw [untouched k (List.not_mem_of_not_mem_cons outside),
        get?_mergeSection_of_ne (List.ne_of_not_mem_cons outside)]

/-- An overlay that merges lies over the sections that it reaches, and nothing else has changed. Its
entries have no key twice, as is so in every document that was read (`keyed_of_read?`). -/
theorem merge_overlays (keyed : ∀ key ∈ sections, ∀ e ∈ entriesOf overlay key, e.Keyed)
    (done : (merge base overlay).outcome = .ok ()) :
    (∀ key ∈ sections, SectionOverlaid base overlay (merge base overlay).result key) ∧
      ∀ key, key ∉ sections → (merge base overlay).result.get? key = base.get? key :=
  mergeSections_overlaid (by decide) keyed done

/-- A base with a nameless entry and a name that comes twice, and an overlay that gives a name
twice and brings a new one. -/
theorem repeated_names_overlaid :
    let named (name : String) (fields : Table) : Value := .table (("name", .text name) :: fields)
    let base : Table :=
      [("sink", .array [.table [("level", .text "warn")], named "a" [("level", .text "info")],
        named "a" [("level", .text "trace")]]), ("global_pattern", .text "%v")]
    let overlay : Table :=
      [("sink", .array [named "b" [], named "a" [("level", .text "debug")],
        named "a" [("syslog", .table [])], named "b" [("level", .text "error")]]),
        ("logger", .array [named "main" []]), ("global_pattern", .text "%l")]
    (∀ key ∈ sections, ∀ e ∈ entriesOf overlay key, e.Keyed) ∧
      (merge base overlay).outcome = .ok () ∧
      (∀ key ∈ sections, SectionOverlaid base overlay (merge base overlay).result key) ∧
      ∀ key, key ∉ sections → (merge base overlay).result.get? key = base.get? key := by
  intro named base overlay
  have keyed : ∀ key ∈ sections, ∀ e ∈ entriesOf overlay key, e.Keyed := by
    unfold Table.Keyed
    decide
  exact ⟨keyed, rfl, merge_overlays keyed rfl⟩

end LogTopology.Overlay
