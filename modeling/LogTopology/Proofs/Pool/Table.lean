import LogTopology.Pool.Table
import LogTopology.Proofs.Document.Field
import LogTopology.Proofs.NamedList
import LogTopology.Proofs.Plan.Calls
import LogTopology.Proofs.Setup
import Mathlib.Data.List.Forall2
/-!
# What setting up pools asks for

The shared pool is set when the document has one, then each entry makes a pool of its name and its
sizes. Entries are taken in order up to the first one at fault, which asks for nothing
(`make_yields`). An entry is at fault without a name, without a size of each kind that is not zero,
or with a name that a pool has already.

`SetsUp` has one rule for each way in which this goes, and `ofDocument_yields` finds the one that
applies, whatever handles the calls were answered with. A name that was refused for its pool belongs
to an earlier entry, so in what was made every name stands once.

The shared pool is set before any entry is read, so a fault of an entry does not take it back. The
calls are supposed to succeed.
-/

namespace LogTopology

/-- Sizes that a pool can have. -/
structure PoolSize.Positive (size : PoolSize) : Prop where
  queue : 1 ≤ size.queue
  threads : 1 ≤ size.threads

namespace PoolTable

open Document (entriesOf entryName?)

variable {S P L : Type} {pools : PoolTable P} {entries : List Document.Table}
  {doc t : Document.Table} {size : PoolSize}

/-- A table with both sizes of a pool, none of them zero. -/
structure Sized (t : Document.Table) (size : PoolSize) : Prop where
  queue : Document.lookup .count t "queue_size" = .present size.queue
  threads : Document.lookup .count t "num_threads" = .present size.threads
  queuePos : 0 < size.queue
  threadsPos : 0 < size.threads

/-- A pool that was asked for, with its handle. -/
structure Made (P : Type) where
  name : String
  size : PoolSize
  pool : P

/-- The call that made a pool. -/
def Made.call (made : Made P) : Answered S P L :=
  ⟨.createPool made.name made.size, made.pool⟩

/-- What the table has of a pool. -/
def Made.entry (made : Made P) : String × P :=
  (made.name, made.pool)

/-- An entry asks for this pool. -/
structure Makes (entry : Document.Table) (made : Made P) : Prop where
  name : entryName? entry = some made.name
  size : Sized entry made.size

/-- The shared pool is set when the document has one. -/
def SharedCalls (doc : Document.Table) (cs : List (Answered S P L)) : Prop :=
  (Document.subTable doc "global_thread_pool" = .ok none ∧ cs = []) ∨
    ∃ t size, Document.subTable doc "global_thread_pool" = .ok (some t) ∧ Sized t size ∧
      cs = [⟨.setSharedPool size, ()⟩]

/-! ## Sizes -/

/-- A size is read when it is there and not zero. -/
theorem dimension_eq_ok {field owner : String} {n : Nat} :
    dimension t field owner = .ok n ↔ Document.lookup .count t field = .present n ∧ 0 < n := by
  unfold dimension
  split
  · rename_i zero
    constructor
    · intro h
      cases h
    · rintro ⟨h, pos⟩
      rw [zero] at h
      cases h
      exact absurd pos (Nat.lt_irrefl 0)
  · rename_i m positive found
    constructor
    · intro h
      cases h
      exact ⟨found, Nat.pos_of_ne_zero positive⟩
    · rintro ⟨h, -⟩
      rw [found] at h
      cases h
      rfl
  · rename_i absent
    constructor
    · intro h
      cases h
    · rintro ⟨h, -⟩
      rw [absent] at h
      cases h
  · rename_i mismatch
    constructor
    · intro h
      cases h
    · rintro ⟨h, -⟩
      rw [mismatch] at h
      cases h

/-- The sizes of a pool are read when both are there and none is zero. -/
theorem sizeOf_eq_ok {owner : String} : sizeOf t owner = .ok size ↔ Sized t size := by
  unfold sizeOf
  constructor
  · intro h
    obtain ⟨queue, hqueue, h⟩ := Setup.bind_eq_ok.mp h
    obtain ⟨threads, hthreads, h⟩ := Setup.bind_eq_ok.mp h
    cases h
    obtain ⟨queueIs, queuePos⟩ := dimension_eq_ok.mp hqueue
    obtain ⟨threadsIs, threadsPos⟩ := dimension_eq_ok.mp hthreads
    exact ⟨queueIs, threadsIs, queuePos, threadsPos⟩
  · rintro ⟨queueIs, threadsIs, queuePos, threadsPos⟩
    rw [dimension_eq_ok.mpr ⟨queueIs, queuePos⟩]
    change (dimension t "num_threads" owner >>= fun threads => pure _) = _
    rw [dimension_eq_ok.mpr ⟨threadsIs, threadsPos⟩]
    rfl

/-- Sizes that are read are those that a pool can have. -/
theorem Sized.positive (sized : Sized t size) : size.Positive :=
  ⟨sized.queuePos, sized.threadsPos⟩

/-! ## The shared pool -/

/-- The shared pool asks for one call, if the document has one, and for none when its table is at
fault. -/
theorem setShared_yields {cs : List (Answered S P L)} {r : Setup Unit}
    (h : (setShared doc).Yields cs r) :
    (r = .ok () ∧ SharedCalls doc cs) ∨
      (∃ e, r = .error e) ∧ cs = [] ∧ ∀ calls : List (Answered S P L), ¬SharedCalls doc calls := by
  unfold setShared at h
  rcases Plan.yields_ofSetup_bind h with ⟨e, shared, rfl, rfl⟩ | ⟨found, shared, afterShared⟩
  · refine .inr ⟨⟨e, rfl⟩, rfl, ?_⟩
    rintro calls (⟨absent, -⟩ | ⟨t, size, found, -, -⟩)
    · cases shared.symm.trans absent
    · cases shared.symm.trans found
  cases found with
  | none =>
    obtain ⟨rfl, rfl⟩ := Plan.yields_pure.mp afterShared
    exact .inl ⟨rfl, .inl ⟨shared, rfl⟩⟩
  | some t =>
    rcases Plan.yields_ofSetup_bind afterShared with ⟨e, sized, rfl, rfl⟩ | ⟨size, sized, afterSized⟩
    · refine .inr ⟨⟨e, rfl⟩, rfl, ?_⟩
      rintro calls (⟨absent, -⟩ | ⟨t', size, found, hsize, -⟩)
      · cases shared.symm.trans absent
      · cases shared.symm.trans found
        rw [sizeOf_eq_ok.mpr hsize] at sized
        cases sized
    · obtain ⟨⟨⟩, rest, after, rfl⟩ := Plan.yields_ask_bind afterSized
      obtain ⟨rfl, rfl⟩ := Plan.yields_report.mp after
      exact .inl ⟨rfl, .inr ⟨t, size, shared, sizeOf_eq_ok.mp sized, rfl⟩⟩

/-! ## Named pools -/

/-- What is asked for while pools are made beside those that there are: the pools of the entries
that were taken, which are all of them or end before one that has no name, no sizes or a name that
is taken. -/
structure MakesPools (pools : PoolTable P) (entries : List Document.Table)
    (cs : List (Answered S P L)) (r : Setup (PoolTable P)) (before after : List Document.Table)
    (made : List (Made P)) : Prop where
  taken : entries = before ++ after
  makes : List.Forall₂ Makes before made
  calls : cs = made.map Made.call
  distinct : ((pools ++ made.map Made.entry).map Prod.fst).Nodup
  outcome : (r = .ok (pools ++ made.map Made.entry) ∧ after = []) ∨
    (∃ e, r = .error e) ∧ ∃ failing later, after = failing :: later ∧
      ∀ m : Made P, Makes failing m → m.name ∈ (pools ++ made.map Made.entry).map Prod.fst

/-- An entry at fault makes no pool, and nothing is asked for. -/
theorem makesPools_of_error {entry : Document.Table} {e : SetupError}
    (distinct : (pools.map Prod.fst).Nodup)
    (fault : ∀ m : Made P, Makes entry m → m.name ∈ pools.map Prod.fst) :
    MakesPools pools (entry :: entries) ([] : List (Answered S P L)) (.error e) []
      (entry :: entries) [] := by
  refine ⟨rfl, .nil, rfl, ?_, .inr ⟨⟨e, rfl⟩, entry, entries, rfl, ?_⟩⟩
  · rw [List.map_nil, List.append_nil]
    exact distinct
  · rw [List.map_nil, List.append_nil]
    exact fault

/-- An entry that makes a pool makes it before the entries behind it. -/
theorem MakesPools.cons {entry : Document.Table} {m : Made P} {cs : List (Answered S P L)}
    {r : Setup (PoolTable P)} {before after : List Document.Table} {made : List (Made P)}
    (makes : Makes entry m) (rest : MakesPools (pools ++ [m.entry]) entries cs r before after made) :
    MakesPools pools (entry :: entries) (m.call :: cs) r (entry :: before) after (m :: made) := by
  have table : pools ++ (m :: made).map Made.entry = pools ++ [m.entry] ++ made.map Made.entry := by
    rw [List.append_assoc]
    rfl
  refine ⟨?_, .cons makes rest.makes, ?_, ?_, ?_⟩
  · rw [rest.taken]
    rfl
  · rw [rest.calls]
    rfl
  · rw [table]
    exact rest.distinct
  · rw [table]
    exact rest.outcome

/-- Pools are made entry by entry, up to the first one at fault. -/
theorem make_yields {cs : List (Answered S P L)} {r : Setup (PoolTable P)}
    (distinct : (pools.map Prod.fst).Nodup) (h : (make pools entries).Yields cs r) :
    ∃ before after made, MakesPools pools entries cs r before after made := by
  induction entries generalizing pools cs with
  | nil =>
    obtain ⟨rfl, rfl⟩ := Plan.yields_pure.mp h
    refine ⟨[], [], [], rfl, .nil, rfl, ?_, .inl ⟨?_, rfl⟩⟩
    · rw [List.map_nil, List.append_nil]
      exact distinct
    · rw [List.map_nil, List.append_nil]
  | cons entry entries ih =>
    unfold make at h
    cases named : entryName? entry with
    | none =>
      rw [named] at h
      obtain ⟨rfl, rfl⟩ := Plan.yields_fail.mp h
      refine ⟨[], _, [], makesPools_of_error distinct fun m makes => ?_⟩
      cases named.symm.trans makes.name
    | some name =>
    rw [named] at h
    dsimp only at h
    split at h
    · -- The name has a pool already, and a second one would not be of a new name.
      rename_i taken
      obtain ⟨rfl, rfl⟩ := Plan.yields_fail.mp h
      refine ⟨[], _, [], makesPools_of_error distinct fun m makes => ?_⟩
      cases named.symm.trans makes.name
      obtain ⟨pool, found⟩ := Option.isSome_iff_exists.mp taken
      exact List.mem_map.mpr ⟨(_, pool), mem_of_lookup found, rfl⟩
    · rename_i free
      rcases Plan.yields_ofSetup_bind h with ⟨e, sized, rfl, rfl⟩ | ⟨size, sized, afterSized⟩
      · refine ⟨[], _, [], makesPools_of_error distinct fun m makes => ?_⟩
        rw [sizeOf_eq_ok.mpr makes.size] at sized
        cases sized
      · obtain ⟨pool, rest, after, rfl⟩ := Plan.yields_ask_bind afterSized
        have later := Plan.yields_report_bind after
        have fresh : name ∉ pools.map Prod.fst := by
          intro mem
          obtain ⟨old, found⟩ := exists_lookup_of_mem_names mem
          exact free (by rw [found]; rfl)
        have grown := nodup_names_append distinct fresh pool
        obtain ⟨before, left, made, makes⟩ := ih grown later
        have here : Makes entry ⟨name, size, pool⟩ := ⟨named, sizeOf_eq_ok.mp sized⟩
        exact ⟨entry :: before, left, ⟨name, size, pool⟩ :: made, makes.cons here⟩

/-! ## All pools of a document -/

/-- The calls for the shared pool and for the pools of some entries, each under a name of its own. -/
structure PoolCalls (doc : Document.Table) (entries : List Document.Table) (made : List (Made P))
    (cs : List (Answered S P L)) : Prop where
  makes : List.Forall₂ Makes entries made
  distinct : (made.map Made.name).Nodup
  calls : ∃ shared, SharedCalls doc shared ∧ cs = shared ++ made.map Made.call

/-- What is asked for while the pools of a document are set up, and how that ends. -/
inductive SetsUp (doc : Document.Table) : List (Answered S P L) → Setup (PoolTable P) → Prop where
  | complete {made : List (Made P)} {cs : List (Answered S P L)}
      (listed : ∃ found, Document.tableArray doc "thread_pool" = .ok found)
      (hcs : PoolCalls doc (entriesOf doc "thread_pool") made cs) :
      SetsUp doc cs (.ok (made.map Made.entry))
  | atFault {before later : List Document.Table} {failing : Document.Table} {made : List (Made P)}
      {cs : List (Answered S P L)} (e : SetupError)
      (listed : entriesOf doc "thread_pool" = before ++ failing :: later)
      (hcs : PoolCalls doc before made cs)
      (fault : ∀ m : Made P, Makes failing m → m.name ∈ made.map Made.name) :
      SetsUp doc cs (.error e)
  | unlisted {cs : List (Answered S P L)} (e : SetupError)
      (fault : ∀ found, Document.tableArray doc "thread_pool" ≠ .ok found)
      (hcs : SharedCalls doc cs) : SetsUp doc cs (.error e)
  | unshared (e : SetupError) (fault : ∀ calls : List (Answered S P L), ¬SharedCalls doc calls) :
      SetsUp doc [] (.error e)

/-- How the pools of a document are set up, read off the calls for them. -/
theorem ofDocument_yields {cs : List (Answered S P L)} {r : Setup (PoolTable P)}
    (h : (ofDocument doc).Yields cs r) : SetsUp doc cs r := by
  unfold ofDocument at h
  rcases Plan.yields_bind.mp h with ⟨e, stopped, rfl⟩ | ⟨_, shared, rest, started, after, rfl⟩
  · rcases setShared_yields stopped with ⟨absurd, -⟩ | ⟨-, rfl, fault⟩
    · cases absurd
    · exact .unshared e fault
  · have sharedCalls : SharedCalls doc shared := by
      rcases setShared_yields started with ⟨-, good⟩ | ⟨⟨_, absurd⟩, -⟩
      · exact good
      · cases absurd
    rcases Plan.yields_ofSetup_bind after with ⟨e, listed, rfl, rfl⟩ | ⟨found, listed, afterListed⟩
    · rw [List.append_nil]
      refine .unlisted e (fun found same => ?_) sharedCalls
      cases listed.symm.trans same
    cases found with
    | none =>
      obtain ⟨rfl, rfl⟩ := Plan.yields_pure.mp afterListed
      have noPools : PoolCalls doc (entriesOf doc "thread_pool") ([] : List (Made P)) (shared ++ []) := by
        rw [Document.entriesOf_eq_nil listed]
        exact ⟨.nil, List.nodup_nil, shared, sharedCalls, rfl⟩
      exact .complete ⟨_, listed⟩ noPools
    | some entries =>
      have entriesAre := Document.entriesOf_eq listed
      have distinct : (([] : PoolTable P).map Prod.fst).Nodup := List.nodup_nil
      obtain ⟨before, left, made, makes⟩ := make_yields distinct afterListed
      have names : (([] : PoolTable P) ++ made.map Made.entry).map Prod.fst = made.map Made.name :=
        List.map_map
      have pools : PoolCalls doc before made (shared ++ rest) :=
        ⟨makes.makes, by rw [← names]; exact makes.distinct, shared, sharedCalls, by rw [makes.calls]⟩
      rcases makes.outcome with ⟨rfl, rfl⟩ | ⟨⟨e, rfl⟩, failing, later, rfl, fault⟩
      · have all : entriesOf doc "thread_pool" = before := by
          rw [entriesAre, makes.taken, List.append_nil]
        rw [← all] at pools
        exact .complete ⟨_, listed⟩ pools
      · rw [names] at fault
        exact .atFault e (entriesAre.trans makes.taken) pools fault

end PoolTable

end LogTopology
