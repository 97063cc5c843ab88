import LogTopology.Overlay
import LogTopology.Proofs.Document.Layers
import Mathlib.Data.List.Nodup
/-!
# Layers of entries

An overlay is laid entry by entry: each is written over the first entry of its name, or appended.
Laying two entries of different names may be done in either order when the place of one is there
already, and two entries of one name are one entry, the fields of the second over those of the
first. From these laws it follows that an overlay whose names are distinct can be overlaid itself
before it is laid (`layAll_layAll`), and from that, that laying any overlay twice is laying it once
(`layAll_again`): the overlay laid over nothing has distinct names and comes to the same.

Distinct names are needed for the lower of the two layers only. What the upper one writes over the
first entry of a name would otherwise be undone by the second.
-/

namespace LogTopology.Overlay

open Document

variable {base first second overlay : List Table} {entry e f : Table} {name other n : String}

/-- An entry of the given name, with no key twice. -/
structure Labelled (e : Table) (name : String) : Prop where
  keyed : e.Keyed
  named : entryName? e = some name

/-- Entries whose names are distinct texts. -/
structure DistinctlyNamed (entries : List Table) : Prop where
  named : ∀ e ∈ entries, (entryName? e).isSome
  distinct : (entries.map entryName?).Nodup

/-- Lays an entry over the first of its name, or behind the others when there is none. -/
def lay (base : List Table) (entry : Table) : List Table :=
  match entryName? entry with
  | none => base
  | some name => if base.any (isNamed name) then overwriteNamed name entry base else base ++ [entry]

/-- Lays entries one after the other. -/
def layAll (base overlay : List Table) : List Table :=
  overlay.foldl lay base

/-! ## One entry -/

/-- An entry of a name that is there is written over the first one of the name. -/
theorem lay_of_old (named : entryName? entry = some name) (old : some name ∈ base.map entryName?) :
    lay base entry = overwriteNamed name entry base := by
  simp only [lay, named, any_isNamed_iff.mpr old, if_true]

/-- An entry of a new name is appended. -/
theorem lay_of_new (named : entryName? entry = some name) (new : some name ∉ base.map entryName?) :
    lay base entry = base ++ [entry] := by
  simp only [lay, named, any_isNamed_iff, new, if_false]

namespace Labelled

/-- An entry with a name gives it to what it is written over. -/
theorem keeps (label : Labelled e name) (t : Table) : entryName? (t.insertAll e) = some name :=
  entryName?_insertAll label.keyed label.named t

/-- An entry that is written over another keeps its name and keys distinct. -/
theorem insertAll (label : Labelled f name) {t : Table} (keyed : t.Keyed) :
    Labelled (t.insertAll f) name :=
  ⟨keyed.insertAll f, label.keeps t⟩

/-- Laying an entry adds its name and takes none away. -/
theorem mem_names_lay (label : Labelled e name) :
    some n ∈ (lay base e).map entryName? ↔ n = name ∨ some n ∈ base.map entryName? := by
  by_cases old : some name ∈ base.map entryName?
  · rw [lay_of_old label.named old, map_entryName?_overwriteNamed fun t _ => label.keeps t]
    constructor
    · exact .inr
    · rintro (rfl | mem)
      · exact old
      · exact mem
  · rw [lay_of_new label.named old, List.map_append, List.mem_append, List.map_singleton,
      List.mem_singleton, label.named, Option.some.injEq, or_comm]

/-- Two entries of one name are one, the fields of the second over those of the first. -/
theorem lay_lay (label : Labelled e name) (labelSecond : Labelled f name) :
    lay (lay base e) f = lay base (e.insertAll f) := by
  have there : some name ∈ (lay base e).map entryName? := label.mem_names_lay.mpr (.inl rfl)
  have both := labelSecond.insertAll label.keyed
  rw [lay_of_old labelSecond.named there]
  by_cases old : some name ∈ base.map entryName?
  · rw [lay_of_old label.named old, lay_of_old both.named old,
      overwriteNamed_overwriteNamed label.keyed label.named]
  · rw [lay_of_new label.named old, lay_of_new both.named old, overwriteNamed_append_of_new old,
      overwriteNamed_cons_of_named label.named]

/-- Entries of two names may be laid in either order when the place of one is there. -/
theorem lay_comm (label : Labelled e name) (labelSecond : Labelled f other) (apart : name ≠ other)
    (old : some name ∈ base.map entryName?) : lay (lay base e) f = lay (lay base f) e := by
  have oldAfter : some name ∈ (lay base f).map entryName? := labelSecond.mem_names_lay.mpr (.inr old)
  rw [lay_of_old label.named old, lay_of_old label.named oldAfter]
  have names : (overwriteNamed name e base).map entryName? = base.map entryName? :=
    map_entryName?_overwriteNamed (fun t _ => label.keeps t) base
  by_cases there : some other ∈ base.map entryName?
  · have thereAfter : some other ∈ (overwriteNamed name e base).map entryName? := by rwa [names]
    rw [lay_of_old labelSecond.named thereAfter, lay_of_old labelSecond.named there]
    exact overwriteNamed_comm apart label.keyed label.named labelSecond.keyed labelSecond.named base
  · have newAfter : some other ∉ (overwriteNamed name e base).map entryName? := by rwa [names]
    rw [lay_of_new labelSecond.named newAfter, lay_of_new labelSecond.named there,
      overwriteNamed_append_of_old old]

end Labelled

/-! ## Runs of entries -/

/-- Every entry has a name, and no key twice. -/
def Layer (entries : List Table) : Prop :=
  ∀ e ∈ entries, ∃ name, Labelled e name

/-- Entries that have names, and keys that are distinct, are a layer. -/
theorem layer_of_named (keyed : ∀ e ∈ overlay, e.Keyed)
    (named : ∀ e ∈ overlay, (entryName? e).isSome) : Layer overlay := by
  intro e mem
  obtain ⟨name, hname⟩ := Option.isSome_iff_exists.mp (named e mem)
  exact ⟨name, keyed e mem, hname⟩

/-- Laying an entry over a layer leaves a layer. -/
theorem Layer.lay (layer : Layer base) (label : Labelled e name) : Layer (lay base e) := by
  intro x mem
  by_cases old : some name ∈ base.map entryName?
  · rw [lay_of_old label.named old] at mem
    rcases mem_overwriteNamed mem with kept | ⟨y, was, rfl⟩
    · exact layer x kept
    · obtain ⟨_, labelOld⟩ := layer y was
      exact ⟨name, label.insertAll labelOld.keyed⟩
  · rw [lay_of_new label.named old] at mem
    rcases List.mem_append.mp mem with mem | mem
    · exact layer x mem
    · rw [List.mem_singleton.mp mem]
      exact ⟨name, label⟩

/-- Laying a layer over a layer leaves a layer. -/
theorem Layer.layAll (layer : Layer base) (upper : Layer overlay) : Layer (layAll base overlay) := by
  induction overlay generalizing base with
  | nil => exact layer
  | cons e overlay ih =>
    obtain ⟨⟨name, label⟩, upper⟩ := List.forall_mem_cons.mp upper
    exact ih (layer.lay label) upper

/-- Laying an entry leaves the names distinct. -/
theorem nodup_names_lay (label : Labelled e name) (distinct : (base.map entryName?).Nodup) :
    ((lay base e).map entryName?).Nodup := by
  by_cases old : some name ∈ base.map entryName?
  · rwa [lay_of_old label.named old, map_entryName?_overwriteNamed fun t _ => label.keeps t]
  · rw [lay_of_new label.named old, List.map_append, List.map_singleton, label.named,
      ← List.concat_eq_append]
    exact distinct.concat old

/-- Laying entries leaves the names distinct. -/
theorem nodup_names_layAll (upper : Layer overlay) (distinct : (base.map entryName?).Nodup) :
    ((layAll base overlay).map entryName?).Nodup := by
  induction overlay generalizing base with
  | nil => exact distinct
  | cons e overlay ih =>
    obtain ⟨⟨name, label⟩, upper⟩ := List.forall_mem_cons.mp upper
    exact ih upper (nodup_names_lay label distinct)

/-- An entry may be laid before or after others when its place is there and none of them has its
name. -/
theorem lay_layAll (label : Labelled e name) (upper : Layer overlay)
    (old : some name ∈ base.map entryName?) (fresh : some name ∉ overlay.map entryName?) :
    lay (layAll base overlay) e = layAll (lay base e) overlay := by
  induction overlay generalizing base with
  | nil => rfl
  | cons f overlay ih =>
    obtain ⟨⟨other, labelFirst⟩, upper⟩ := List.forall_mem_cons.mp upper
    rw [List.map_cons, List.mem_cons, not_or, labelFirst.named] at fresh
    have apart : name ≠ other := fun same => fresh.1 (by rw [same])
    have oldAfter : some name ∈ (lay base f).map entryName? :=
      labelFirst.mem_names_lay.mpr (.inr old)
    calc lay (layAll (lay base f) overlay) e
        = layAll (lay (lay base f) e) overlay := ih upper oldAfter fresh.2
      _ = layAll (lay (lay base e) f) overlay := by rw [label.lay_comm labelFirst apart old]

/-- A layer of distinct names with one more entry is the layer, and then the entry. -/
theorem layAll_lay (label : Labelled e name) (layer : Layer first)
    (distinct : (first.map entryName?).Nodup) (base : List Table) :
    layAll base (lay first e) = lay (layAll base first) e := by
  by_cases old : some name ∈ first.map entryName?
  · rw [lay_of_old label.named old]
    induction first generalizing base with
    | nil => cases old
    | cons f rest ih =>
      obtain ⟨⟨other, labelFirst⟩, layer⟩ := List.forall_mem_cons.mp layer
      obtain ⟨fresh, distinct⟩ := List.nodup_cons.mp distinct
      by_cases here : other = name
      · -- The place of the entry is the first of the layer, and none behind it has its name.
        subst here
        rw [overwriteNamed_cons_of_named labelFirst.named]
        rw [labelFirst.named] at fresh
        have there : some other ∈ (lay base f).map entryName? :=
          labelFirst.mem_names_lay.mpr (.inl rfl)
        calc layAll (lay base (f.insertAll e)) rest
            = layAll (lay (lay base f) e) rest := by rw [labelFirst.lay_lay label]
          _ = lay (layAll (lay base f) rest) e := (lay_layAll label layer there fresh).symm
      · have unlike : entryName? f ≠ some name := by
          rw [labelFirst.named]
          exact fun same => here (Option.some.inj same)
        have later : some name ∈ rest.map entryName? :=
          (List.mem_cons.mp old).resolve_left (Ne.symm unlike)
        rw [overwriteNamed_cons_of_ne unlike]
        exact ih layer distinct _ later
  · rw [lay_of_new label.named old]
    exact List.foldl_append

/-- **Layers compose**: an overlay of distinct names can be overlaid itself before it is laid. -/
theorem layAll_layAll (layer : Layer first) (distinct : (first.map entryName?).Nodup)
    (upper : Layer second) (base : List Table) :
    layAll base (layAll first second) = layAll (layAll base first) second := by
  -- The first layer takes in the second entry by entry, and keeps its names distinct.
  induction second generalizing first with
  | nil => rfl
  | cons e second ih =>
    obtain ⟨⟨name, label⟩, upper⟩ := List.forall_mem_cons.mp upper
    calc layAll base (layAll (lay first e) second)
        = layAll (layAll base (lay first e)) second :=
          ih (layer.lay label) (nodup_names_lay label distinct) upper
      _ = layAll (lay (layAll base first) e) second := by rw [layAll_lay label layer distinct]

/-- Laying entries of distinct names over themselves changes nothing. -/
theorem layAll_of_subset (layer : Layer base) (distinct : (base.map entryName?).Nodup)
    (there : overlay ⊆ base) : layAll base overlay = base := by
  induction overlay with
  | nil => rfl
  | cons e overlay ih =>
    obtain ⟨mem, there⟩ := List.cons_subset.mp there
    obtain ⟨name, label⟩ := layer e mem
    have old : some name ∈ base.map entryName? := List.mem_map.mpr ⟨e, mem, label.named⟩
    have found := findNamed?_of_mem distinct mem label.named
    calc layAll (lay base e) overlay
        = layAll base overlay := by
          rw [lay_of_old label.named old, overwriteNamed_of_find label.keyed found]
      _ = base := ih there

/-- Laying an overlay again changes nothing, whatever names come twice in it. -/
theorem layAll_again (upper : Layer overlay) (base : List Table) :
    layAll (layAll base overlay) overlay = layAll base overlay := by
  -- The overlay laid over nothing comes to the same, and has distinct names.
  have none : Layer [] := fun e mem => absurd mem List.not_mem_nil
  have distinct : ((layAll [] overlay).map entryName?).Nodup := nodup_names_layAll upper List.nodup_nil
  have layer := none.layAll upper
  have same (under : List Table) : layAll under overlay = layAll under (layAll [] overlay) :=
    (layAll_layAll none List.nodup_nil upper under).symm
  calc layAll (layAll base overlay) overlay
      = layAll (layAll base (layAll [] overlay)) (layAll [] overlay) := by rw [same, same base]
    _ = layAll base (layAll (layAll [] overlay) (layAll [] overlay)) :=
        (layAll_layAll layer distinct layer base).symm
    _ = layAll base (layAll [] overlay) := by
        rw [layAll_of_subset layer distinct (List.Subset.refl _)]
    _ = layAll base overlay := (same base).symm

end LogTopology.Overlay
