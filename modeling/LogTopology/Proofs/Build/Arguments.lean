import LogTopology.Build
import LogTopology.Proofs.Engine.Stages
import LogTopology.Proofs.Plan.Rule
import LogTopology.Proofs.Pool.Table
import LogTopology.Proofs.Sink.Resolution
import LogTopology.Proofs.Sink.Stopped
import LogTopology.Proofs.Syslog
/-!
# What a build hands to the backend

The checks of a document are made while it is read, and the things that rely on them are made later,
elsewhere. `Build.sound` is the rule that joins the two: pools have room and workers, the numbers of
a sink are in range, a sink is handed one handle for each name that it lists, and no name is used
twice. The plan for a document obeys the rule, and so each call of each run does, whatever the
backend answers and wherever the run stops (`document_attempts_sound`).

The rule says nothing of directories, levels, patterns and loggers, on which nothing relies.

Each stage has a lemma `_sound`, which says that its plan obeys the rule after calls that have made
certain sinks and pools, and what it has made when it goes on. For the sinks this comes from the
walk: its steps make each declared sink once and after its targets, also when it has stopped, and a
kind that was decoded is in range. What obeys the rule is then shown to be what the later code
counts on (`dependable_of_sound`): a pool can be made, a daily file is not refused for its time, and
no facility spills over into the severity.
-/

namespace LogTopology

variable {σ S P L : Type}

/-! ## Ranges -/

namespace Sink.Kind

/-- The numbers of a kind are in the ranges that its sink relies on. -/
def InRange : Kind → Prop
  | dailyFile _ hour minute => hour ≤ 23 ∧ minute ≤ 59
  | syslog _ _ facility => Syslog.FacilityInRange facility
  | _ => True

/-- The decoder of daily files checks hour and minute. -/
theorem inRange_of_decodeDaily {t : Document.Table} {kind : Kind}
    (decoded : decodeDaily t = .ok kind) : kind.InRange := by
  obtain ⟨path, -, decoded⟩ := Setup.bind_eq_ok.mp decoded
  obtain ⟨hour, -, decoded⟩ := Setup.bind_eq_ok.mp decoded
  obtain ⟨minute, -, decoded⟩ := Setup.bind_eq_ok.mp decoded
  by_cases late : 23 < hour
  · rw [if_pos late] at decoded
    cases decoded
  by_cases later : 59 < minute
  · rw [if_neg late, if_pos later] at decoded
    cases decoded
  rw [if_neg late, if_neg later] at decoded
  cases decoded
  exact ⟨Nat.le_of_not_lt late, Nat.le_of_not_lt later⟩

/-- The decoder of the system log refuses facilities that are negative, above 184 or no multiples of
eight. -/
theorem inRange_of_decodeSyslog {t : Document.Table} {kind : Kind}
    (decoded : decodeSyslog t = .ok kind) : kind.InRange := by
  obtain ⟨facility, -, decoded⟩ := Setup.bind_eq_ok.mp decoded
  split at decoded
  · cases decoded
  rename_i allowed
  obtain ⟨ident, -, decoded⟩ := Setup.bind_eq_ok.mp decoded
  obtain ⟨option, -, decoded⟩ := Setup.bind_eq_ok.mp decoded
  cases decoded
  simp only [Bool.or_eq_true, decide_eq_true_eq, not_or, not_not] at allowed
  obtain ⟨⟨nonneg, aligned⟩, le⟩ := allowed
  exact ⟨by omega, by omega, aligned⟩

/-- Whatever is decoded is in range. -/
theorem inRange_of_decode {f : Family} {t : Document.Table} {kind : Kind}
    (decoded : decode f t = .ok kind) : kind.InRange := by
  cases f with
  | dailyFile => exact inRange_of_decodeDaily decoded
  | syslog => exact inRange_of_decodeSyslog decoded
  | basicFile =>
    obtain ⟨path, -, decoded⟩ := Setup.bind_eq_ok.mp decoded
    obtain ⟨truncate, -, decoded⟩ := Setup.bind_eq_ok.mp decoded
    cases decoded
    trivial
  | rotatingFile =>
    obtain ⟨path, -, decoded⟩ := Setup.bind_eq_ok.mp decoded
    obtain ⟨maxSize, -, decoded⟩ := Setup.bind_eq_ok.mp decoded
    obtain ⟨maxFiles, -, decoded⟩ := Setup.bind_eq_ok.mp decoded
    obtain ⟨size, -, decoded⟩ := Setup.bind_eq_ok.mp decoded
    cases decoded
    trivial
  | dist =>
    obtain ⟨targets, -, rfl⟩ := Setup.map_eq_ok.mp decoded
    trivial
  | _ =>
    cases decoded
    trivial

end Sink.Kind

/-! ## The rule -/

/-- The name and the handle of the pool that a call has made, if it is a call that makes one. -/
def Answered.pool? : Answered S P L → Option (String × P)
  | ⟨.createPool name _, pool⟩ => some (name, pool)
  | _ => none

/-- The sinks that calls have made, by name. -/
def sinksMade (cs : List (Answered S P L)) : Sink.SinkTable S :=
  cs.filterMap Answered.sink?

/-- The pools that calls have made, by name. -/
def poolsMade (cs : List (Answered S P L)) : PoolTable P :=
  cs.filterMap Answered.pool?

/-- What a call that makes a sink hands over, after other calls. -/
structure Sink.Ordered (before : List (Answered S P L)) (name : String) (kind : Kind)
    (forwards : List S) : Prop where
  fresh : name ∉ (sinksMade before).map Prod.fst
  inRange : kind.InRange
  /-- The handles are those of the listed names, in their order and with repetitions. -/
  handles : kind.targets.map (fun t => (sinksMade before).lookup t) = forwards.map some

namespace Build

/-- The rule for the calls of a build. -/
def sound : CallRule S P L where
  allows before
    | .createSink name kind forwards => Sink.Ordered before name kind forwards
    | .setSharedPool size => size.Positive
    | .createPool name size => name ∉ (poolsMade before).map Prod.fst ∧ size.Positive
    | _ => True

end Build

/-- More calls were made, but no sink and no pool. -/
structure SameMade (before after : List (Answered S P L)) : Prop where
  sinks : sinksMade after = sinksMade before
  pools : poolsMade after = poolsMade before

/-- Sinks that were made before others come first. -/
theorem sinksMade_append (first rest : List (Answered S P L)) :
    sinksMade (first ++ rest) = sinksMade first ++ sinksMade rest :=
  List.filterMap_append

/-- Pools that were made before others come first. -/
theorem poolsMade_append (first rest : List (Answered S P L)) :
    poolsMade (first ++ rest) = poolsMade first ++ poolsMade rest :=
  List.filterMap_append

theorem SameMade.refl (before : List (Answered S P L)) : SameMade before before :=
  ⟨rfl, rfl⟩

/-- A call that makes neither a sink nor a pool. -/
theorem sameMade_append {before : List (Answered S P L)} {c : Answered S P L}
    (noSink : c.sink? = none) (noPool : c.pool? = none) : SameMade before (before ++ [c]) := by
  refine ⟨?_, ?_⟩
  · rw [sinksMade_append, sinksMade, sinksMade, List.filterMap_cons, noSink]
    exact List.append_nil _
  · rw [poolsMade_append, poolsMade, poolsMade, List.filterMap_cons, noPool]
    exact List.append_nil _

open Plan Build

/-! ## Sinks -/

namespace Sink

variable {before : List (Answered S P L)} {d : Declaration} {kind : Kind} {table : SinkTable S}

/-- Preparing a sink makes at most a directory. -/
theorem prepare_sound :
    (prepare d kind : Plan S P L Unit).Obeys sound before fun _ after => SameMade before after := by
  rw [prepare, Obeys, meets_bind, obeys_ofSetup]
  intro asked _
  cases asked with
  | false => exact .refl before
  | true =>
    cases kind.directory? with
    | none => exact .refl before
    | some path => exact ⟨trivial, fun _ => sameMade_append rfl rfl⟩

/-- Setting the level of a sink makes nothing. -/
theorem assignLevel_sound {sink : S} :
    (assignLevel d sink : Plan S P L Unit).Obeys sound before fun _ after =>
      SameMade before after := by
  rw [assignLevel, Obeys, meets_bind, obeys_ofSetup]
  intro level _
  cases level with
  | none => exact .refl before
  | some level => exact ⟨trivial, fun _ => sameMade_append rfl rfl⟩

/-- A sink is made in order when its name is new, its kind was decoded, and its targets were made. -/
theorem make_sound (made : sinksMade before = table) (fresh : d.name ∉ table.map Prod.fst)
    (inRange : kind.InRange) (known : ∀ t ∈ kind.targets, t ∈ table.map Prod.fst) :
    (make table d kind : Plan S P L S).Obeys sound before fun sink after =>
      sinksMade after = table ++ [(d.name, sink)] ∧ poolsMade after = poolsMade before := by
  rw [make, Obeys, meets_bind]
  refine prepare_sound.imp fun _ prepared same => ?_
  have found : kind.targets.map (fun t => (table ++ []).lookup t) =
      (kind.targets.filterMap fun t => table.lookup t).map some := map_lookup_append known
  rw [List.append_nil, ← made, ← same.sinks] at found
  rw [meets_bind, obeys_ask]
  rw [← made, ← same.sinks] at fresh ⊢
  refine ⟨⟨fresh, inRange, found⟩, fun sink => ?_⟩
  rw [meets_bind]
  refine assignLevel_sound.imp fun _ after sameAfter => ?_
  rw [meets_bind, meets_report, meets_pure, sameAfter.sinks, sameAfter.pools, sinksMade_append,
    poolsMade_append, same.pools]
  exact ⟨rfl, List.append_nil _⟩

/-- The steps of a walk make sinks in order when each of them has a new name and comes after its
targets. -/
theorem follow_sound {steps : List Step} (made : sinksMade before = table)
    (inRange : ∀ m ∈ makes steps, m.2.InRange)
    (once : (table.map Prod.fst ++ (makes steps).map fun m => m.1.name).Nodup)
    (known : ∀ front m back, makes steps = front ++ m :: back →
      ∀ t ∈ m.2.targets, t ∈ table.map Prod.fst ++ front.map fun m => m.1.name) :
    (follow table steps : Plan S P L (SinkTable S)).Obeys sound before fun _ after =>
      poolsMade after = poolsMade before := by
  induction steps generalizing table before with
  | nil => rfl
  | cons step steps ih =>
    cases step with
    | enter name depth => exact ih made inRange once known
    | make d kind =>
      have fresh : d.name ∉ table.map Prod.fst := fun mem =>
        (List.nodup_append.mp once).2.2 _ mem _ List.mem_cons_self rfl
      have knownHere : ∀ t ∈ kind.targets, t ∈ table.map Prod.fst := by
        intro t target
        have := known [] (d, kind) (makes steps) rfl t target
        rwa [List.map_nil, List.append_nil] at this
      rw [follow, Obeys, meets_bind, within, meets_mapError]
      refine (make_sound made fresh (inRange _ List.mem_cons_self) knownHere).imp ?_
      rintro sink after ⟨grown, pools⟩
      have names : (table ++ [(d.name, sink)]).map Prod.fst = table.map Prod.fst ++ [d.name] :=
        List.map_append
      rw [← pools]
      refine ih grown (fun m mem => inRange m (List.mem_cons_of_mem _ mem)) ?_ ?_
      · rw [names, List.append_assoc]
        exact once
      · intro front m back split t target
        rw [names, List.append_assoc]
        exact known ((d, kind) :: front) m back (congrArg (_ :: ·) split) t target

/-- The sinks of a document are made in order, up to whatever stops the plan. -/
theorem resolve_sound (doc : Document.Table) :
    (resolve doc : Plan S P L (SinkTable S)).Obeys sound [] fun _ after =>
      poolsMade after = [] := by
  rw [resolve, Obeys, meets_bind, obeys_ofSetup]
  intro found _
  cases found with
  | none => exact meets_fail.mpr trivial
  | some entries =>
    simp only [meets_bind, obeys_ofSetup]
    intro ds _
    obtain ⟨walked, first⟩ := walk_sound ds
    generalize walk ds = visited at walked first
    obtain ⟨p, stop⟩ := visited
    have inRange : ∀ m ∈ makes p.steps, m.2.InRange := fun m mem =>
      Kind.inRange_of_decode (walked.makesDecoded m mem).2
    have once : (([] : SinkTable S).map Prod.fst ++ (makes p.steps).map fun m => m.1.name).Nodup := by
      rw [walked.makesMade]
      exact walked.madeOnce
    have known : ∀ front m back, makes p.steps = front ++ m :: back → ∀ t ∈ m.2.targets,
        t ∈ ([] : SinkTable S).map Prod.fst ++ front.map fun m => m.1.name :=
      fun _ _ _ split _ target => walked.targets_before first split target
    have followed : (follow [] p.steps : Plan S P L (SinkTable S)).Obeys sound [] fun _ after =>
        poolsMade after = [] := follow_sound rfl inRange once known
    refine followed.imp fun table after same => ?_
    cases stop with
    | some e => exact meets_fail.mpr trivial
    | none => exact same

end Sink

/-! ## Pools and loggers -/

namespace PoolTable

/-- The shared pool has room and workers, and is not one of the named ones. -/
theorem setShared_sound (doc : Document.Table) (before : List (Answered S P L)) :
    (setShared doc : Plan S P L Unit).Obeys sound before fun _ after =>
      poolsMade after = poolsMade before := by
  simp only [setShared, meets_bind, obeys_ofSetup]
  intro found _
  cases found with
  | none => rfl
  | some t =>
    simp only [meets_bind, obeys_ofSetup, obeys_ask, meets_report]
    intro size sized
    exact ⟨(sizeOf_eq_ok.mp sized).positive, fun _ => (sameMade_append rfl rfl).pools⟩

/-- Each named pool has a new name, room and workers. -/
theorem make_sound {pools : PoolTable P} {entries : List Document.Table}
    {before : List (Answered S P L)} (made : poolsMade before = pools) :
    (make pools entries : Plan S P L (PoolTable P)).Obeys sound before fun _ _ => True := by
  induction entries generalizing pools before with
  | nil => trivial
  | cons entry entries ih =>
    rw [make]
    cases Document.entryName? entry with
    | none => exact meets_fail.mpr trivial
    | some name =>
      dsimp only
      split
      · exact meets_fail.mpr trivial
      · rename_i free
        have fresh : name ∉ (poolsMade before).map Prod.fst := by
          intro mem
          obtain ⟨old, found⟩ := exists_lookup_of_mem_names mem
          rw [made] at found
          exact free (by rw [found]; rfl)
        simp only [meets_bind, obeys_ofSetup, obeys_ask, meets_report]
        intro size sized
        refine ⟨⟨fresh, (sizeOf_eq_ok.mp sized).positive⟩, fun pool => ih ?_⟩
        rw [poolsMade_append, made]
        rfl

/-- The pools of a document obey the rule when no named pool has been made before them. -/
theorem ofDocument_sound (doc : Document.Table) {before : List (Answered S P L)}
    (made : poolsMade before = []) :
    (ofDocument doc : Plan S P L (PoolTable P)).Obeys sound before fun _ _ => True := by
  rw [ofDocument, Obeys, meets_bind]
  refine (setShared_sound doc before).imp fun _ after same => ?_
  simp only [meets_bind, obeys_ofSetup]
  intro found _
  cases found with
  | none => trivial
  | some entries => exact make_sound (same.trans made)

end PoolTable

namespace Logger

/-- On the calls of a logger nothing relies. -/
theorem make_sound (name : String) (order : Order S P) (before : List (Answered S P L)) :
    (make name order : Plan S P L L).Obeys sound before fun _ _ => True := by
  simp only [make, meets_bind, obeys_ask]
  refine ⟨trivial, fun logger => ?_⟩
  obtain ⟨sinks, mode, pattern, level⟩ := order
  cases level <;> cases pattern <;>
    simp [assignLevel, assignPattern, meets_mapError, obeys_ask, meets_pure, sound]

/-- Loggers that are registered one after the other obey the rule. -/
theorem registerAll_sound (env : Surroundings S P) (entries : List Document.Table)
    (before : List (Answered S P L)) :
    (registerAll env entries : Plan S P L Unit).Obeys sound before fun _ _ => True := by
  induction entries generalizing before with
  | nil => trivial
  | cons entry entries ih =>
    rw [registerAll]
    cases Document.entryName? entry with
    | none => exact meets_fail.mpr trivial
    | some name =>
      simp only [meets_bind, obeys_ofSetup, obeys_ask, meets_report]
      intro order _
      exact (make_sound name order before).imp fun logger after _ => ⟨trivial, fun _ => ih _⟩

/-- The loggers of a document obey the rule. -/
theorem ofDocument_sound (env : Surroundings S P) (doc : Document.Table)
    (before : List (Answered S P L)) :
    (ofDocument env doc : Plan S P L Nat).Obeys sound before fun _ _ => True := by
  simp only [ofDocument, meets_bind, obeys_ofSetup]
  intro found _
  cases found with
  | none => exact meets_fail.mpr trivial
  | some entries =>
    rw [meets_bind]
    exact (registerAll_sound env entries before).imp fun _ _ _ => trivial

end Logger

/-! ## Documents -/

/-- The plan for a document obeys the rule. -/
theorem Build.document_sound (doc : Document.Table) :
    (document doc : Plan S P L Unit).Obeys sound [] fun _ _ => True := by
  rw [document, Obeys, meets_bind]
  refine (Sink.resolve_sound doc).imp fun sinks after none => ?_
  rw [afterSinks, meets_bind]
  refine (PatternTable.ofDocument_obeys sound doc after).imp fun patterns _ same => ?_
  rw [meets_bind, same]
  refine (PoolTable.ofDocument_sound doc none).imp fun pools _ _ => ?_
  simp only [meets_bind, obeys_ofSetup, meets_report]
  intro pattern _
  exact (Logger.ofDocument_sound _ doc _).imp fun _ _ _ => trivial

/-- The name of the sink that an attempt is to make, if it is to make one. -/
def Attempt.sinkName? : Attempt σ S P L → Option String
  | ⟨.createSink name _ _, _, _⟩ => some name
  | _ => none

/-- The name of the pool that an attempt is to make, if it is to make one. -/
def Attempt.poolName? : Attempt σ S P L → Option String
  | ⟨.createPool name _, _, _⟩ => some name
  | _ => none

/-- An attempt that was answered with a sink was to make a sink of this name. -/
theorem Attempt.sinkName?_of_answered {a : Attempt σ S P L} {c : Answered S P L}
    (answered : a.answered? = some c) : a.sinkName? = c.sink?.map Prod.fst := by
  obtain ⟨call, s, _ | x⟩ := a
  · cases answered
  · cases answered
    cases call <;> rfl

/-- An attempt that was answered with a pool was to make a pool of this name. -/
theorem Attempt.poolName?_of_answered {a : Attempt σ S P L} {c : Answered S P L}
    (answered : a.answered? = some c) : a.poolName? = c.pool?.map Prod.fst := by
  obtain ⟨call, s, _ | x⟩ := a
  · cases answered
  · cases answered
    cases call <;> rfl

/-- Names read off attempts that were all answered are read off the calls. -/
theorem filterMap_of_answered {γ : Type} {front : List (Attempt σ S P L)}
    {name? : Attempt σ S P L → Option String} {made? : Answered S P L → Option (String × γ)}
    (agree : ∀ a c, a.answered? = some c → name? a = (made? c).map Prod.fst)
    (answered : ∀ a ∈ front, ∃ c, a.answered? = some c) :
    front.filterMap name? = ((front.filterMap Attempt.answered?).filterMap made?).map Prod.fst := by
  rw [List.filterMap_filterMap, List.map_filterMap]
  refine List.filterMap_congr fun a mem => ?_
  obtain ⟨c, found⟩ := answered a mem
  rw [found, agree a c found]
  rfl

/-- What is read off a list has no repetition when nothing is read that was read before. -/
theorem nodup_filterMap_of_fresh.{u} {α : Type u} {γ : Type} {f : α → Option γ} {l : List α}
    (fresh : ∀ front a back, l = front ++ a :: back → ∀ x, f a = some x → x ∉ front.filterMap f) :
    (l.filterMap f).Nodup := by
  induction l using List.reverseRecOn with
  | nil => exact List.nodup_nil
  | append_singleton l a ih =>
    have before : (l.filterMap f).Nodup := ih fun front b back split =>
      fresh front b (back ++ [a]) (by rw [split, List.append_assoc]; rfl)
    rw [List.filterMap_append]
    cases read : f a with
    | none => simpa [List.filterMap_cons, read] using before
    | some x =>
      have new := fresh l a [] rfl x read
      rw [List.filterMap_cons, read]
      exact List.nodup_append.mpr ⟨before, List.nodup_cons.mpr ⟨List.not_mem_nil, .nil⟩, by
        intro y mem z single same
        cases List.mem_singleton.mp single
        exact new (same ▸ mem)⟩

/-! ## What relies on the rule -/

/-- What a sink of a kind can be counted on for: a daily file is not refused for the time at which it
changes, and the priority in each frame of a system log is the sum of facility and severity. -/
def Sink.Kind.Dependable : Kind → Prop
  | .dailyFile path hour minute => ∀ w h m,
      Leaf.make w (.dailyFile path hour minute) ≠ .error (.badRotationTime h m)
  | .syslog ident option facility => ∀ w,
      Leaf.make w (.syslog ident option facility) =
          .ok (some (.syslog ⟨ident, option, facility⟩, w)) ∧
        ∀ level, Syslog.Separable ⟨ident, option, facility⟩ level
  | _ => True

/-- What can be counted on for a call: its pool can be made, and its sink gets handles exactly for
the names that its kind lists, none if it is not one that forwards. -/
def Call.Dependable {β : Type} : Call S P L β → Prop
  | .createSink _ kind forwards =>
      kind.Dependable ∧ (kind.family ≠ .dist → forwards = []) ∧
        forwards.length = kind.targets.length
  | .setSharedPool size => ∀ e : Engine, ∃ pool e', e.addPool size = .ok (pool, e')
  | .createPool _ size => ∀ e : Engine, ∃ pool e', e.addPool size = .ok (pool, e')
  | _ => True

/-- A daily file whose time is a time of day is not refused for it. -/
theorem LogFile.Daily.make_ne_badRotationTime {hour minute : Nat} (hourLe : hour ≤ 23)
    (minuteLe : minute ≤ 59) (d : Disk) (base : String) (now : Calendar.WallTime) (h m : Nat) :
    make d base hour minute now ≠ .error (.badRotationTime h m) := by
  intro refused
  have given : ¬(23 < hour || 59 < minute) := by
    simp only [Bool.or_eq_true, decide_eq_true_eq]
    omega
  rw [make, if_neg given] at refused
  change openLog d (dayName base now.date) false >>= _ = _ at refused
  rw [openLog] at refused
  cases opened : (if false then Writer.fresh d (dayName base now.date)
    else Writer.append d (dayName base now.date)) <;> rw [opened] at refused <;> cases refused

/-- A kind whose numbers are in range can be counted on. -/
theorem Sink.Kind.InRange.dependable {kind : Kind} (inRange : kind.InRange) : kind.Dependable := by
  cases kind with
  | dailyFile path hour minute =>
    intro w h m refused
    obtain ⟨hourLe, minuteLe⟩ := inRange
    rw [Leaf.make] at refused
    cases made : LogFile.Daily.make w.disk path hour minute w.now.wall <;>
      rw [made] at refused <;> cases refused
    exact LogFile.Daily.make_ne_badRotationTime hourLe minuteLe _ _ _ _ _ made
  | syslog ident option facility =>
    exact fun w => ⟨rfl, Syslog.FacilityInRange.separable (s := ⟨ident, option, facility⟩) inRange⟩
  | _ => trivial

/-- The call for a sink can be counted on when what it hands over is in order. -/
theorem Sink.Ordered.dependable {before : List (Answered S P L)} {name : String} {kind : Kind}
    {forwards : List S} (ordered : Ordered before name kind forwards) :
    (Call.createSink name kind forwards : Call S P L S).Dependable := by
  have length : forwards.length = kind.targets.length := by
    simpa using (congrArg List.length ordered.handles).symm
  refine ⟨ordered.inRange.dependable, fun other => ?_, length⟩
  have none : kind.targets = [] := by
    cases kind with
    | dist targets => exact absurd rfl other
    | _ => rfl
  exact List.eq_nil_of_length_eq_zero (by rw [length, none]; rfl)

namespace Build

/-- A call that the rule allows can be counted on. -/
theorem dependable_of_sound {β : Type} {before : List (Answered S P L)} {c : Call S P L β}
    (allowed : sound.allows before c) : c.Dependable := by
  cases c with
  | createSink name kind forwards => exact Sink.Ordered.dependable allowed
  | setSharedPool size => exact fun e => ⟨_, _, Engine.addPool_of_positive allowed e⟩
  | createPool name size => exact fun e => ⟨_, _, Engine.addPool_of_positive allowed.2 e⟩
  | _ => trivial

/-- Every call of every run of a build, the one that fails included, obeys the rule after the calls
that were answered before; so no sink and no pool is made twice, and everything that relies on the
arguments can count on them. -/
theorem document_attempts_sound (doc : Document.Table) (b : Backend σ S P L) (s : σ) :
    (∀ front a back, (document doc).attempts b s = front ++ a :: back →
        sound.allows (front.filterMap Attempt.answered?) a.call) ∧
      (((document doc).attempts b s).filterMap Attempt.sinkName?).Nodup ∧
      (((document doc).attempts b s).filterMap Attempt.poolName?).Nodup ∧
      ∀ a ∈ (document doc).attempts b s, a.call.Dependable := by
  have allowed : ∀ front a back, (document doc).attempts b s = front ++ a :: back →
      sound.allows (front.filterMap Attempt.answered?) a.call :=
    fun front a back split => (document_sound doc).attempts_allowed b s split
  refine ⟨allowed, ?_, ?_, ?_⟩
  · refine nodup_filterMap_of_fresh fun front a back split name named => ?_
    obtain ⟨call, t, o⟩ := a
    cases call <;> cases named
    rw [filterMap_of_answered (fun _ _ => Attempt.sinkName?_of_answered)
      (Plan.answered_of_before split)]
    exact (allowed front _ back split).fresh
  · refine nodup_filterMap_of_fresh fun front a back split name named => ?_
    obtain ⟨call, t, o⟩ := a
    cases call <;> cases named
    rw [filterMap_of_answered (fun _ _ => Attempt.poolName?_of_answered)
      (Plan.answered_of_before split)]
    exact (allowed front _ back split).1
  · intro a mem
    obtain ⟨front, back, split⟩ := List.append_of_mem mem
    exact dependable_of_sound (allowed front a back split)

/-- A file that changes every day, the system log, and a fan above them that is declared first. The
second pool has a name that is taken, so the run ends before there is a logger. -/
theorem taken_pool_stops_sound_build :
    let doc : Document.Table :=
      [("sink", .array [
          .table [("name", .text "both"), ("type", .text "dist_sink_mt"),
            ("sinks", .array [.text "day", .text "log", .text "day"])],
          .table [("name", .text "day"), ("type", .text "daily_file_sink_st"),
            ("base_filename", .text "day.log"), ("rotation_hour", .integer 23),
            ("rotation_minute", .integer 59)],
          .table [("name", .text "log"), ("type", .text "syslog_sink_mt"),
            ("syslog_facility", .integer 184)]]),
        ("thread_pool", .array [
          .table [("name", .text "p"), ("queue_size", .integer 1), ("num_threads", .integer 1)],
          .table [("name", .text "p"), ("queue_size", .integer 2), ("num_threads", .integer 1)]]),
        ("logger", .array [.table [("name", .text "main"), ("sinks", .array [.text "both"])]])]
    let attempts := (document doc : Plan Journal.Item Journal.Item Journal.Item Unit).attempts
      (Journal.backend []) .empty
    attempts.filterMap Attempt.sinkName? = ["day", "log", "both"] ∧
      attempts.filterMap Attempt.poolName? = ["p"] ∧ attempts.length = 4 ∧
      (∀ front a back, attempts = front ++ a :: back →
        sound.allows (front.filterMap Attempt.answered?) a.call) ∧
      (attempts.filterMap Attempt.sinkName?).Nodup ∧ (attempts.filterMap Attempt.poolName?).Nodup ∧
      ∀ a ∈ attempts, a.call.Dependable := by
  intro doc attempts
  exact ⟨by decide +kernel, by decide +kernel, by decide +kernel,
    document_attempts_sound doc (Journal.backend []) .empty⟩

end Build

end LogTopology
