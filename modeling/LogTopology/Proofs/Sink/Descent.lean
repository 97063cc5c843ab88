import LogTopology.NamedList
import LogTopology.Proofs.NamedList
import LogTopology.Proofs.Plan.Trials
import LogTopology.Proofs.Sink.Walk
import LogTopology.Sink.Resolve
/-!
# The recursion over the declared sinks

`resolve` walks over the declarations first and makes the sinks of the walk afterwards, with a bound
on the depth that the walk never meets. A descent does both at once and has no bound: every sink is
made when its last target has come to a handle, the handles are kept in a map by name beside the
list of the made names, and the visits under way are frames on a stack. It also has the two ways out
that the walk does not need: a sink that is marked as done and has no handle is worked on again, and
a name may turn out not to be declared when its visit has begun.

`Descent.Reached.inOrder` says what holds of the marks, the map, the list, the path and the frames
at every point that a backend lets a descent come to, and so at every beginning and every end of a
visit. Neither of the two ways out is open there, and there is never a deeper stack than there are
declarations. That a descent ends, and comes to the table of `resolve`, is shown in
`LogTopology.Proofs.Sink.Recursion`.
-/

namespace LogTopology.Sink

variable {σ S P L : Type}

/-! ## Descents -/

/-- A sink that is worked on: the handles that its targets have come to, and the targets that are
still to be visited. -/
structure Frame (S : Type) where
  declaration : Declaration
  kind : Kind
  forwards : List S
  waiting : List String

/-- What a descent is about to do. -/
inductive Moment (S : Type) where
  /-- A visit begins. -/
  | enter (name : String)
  /-- A visit ends with the handle of its sink. -/
  | leave (name : String) (sink : S)
  /-- The sink that is worked on last goes on, or the next declared one is taken. -/
  | onward

/-- A descent under way. -/
structure Descent (S : Type) where
  /-- The marks, the path, and the names of the sinks that were made, in order. -/
  progress : Progress
  /-- The handles of the sinks that were made, by name. -/
  handles : List (String × S)
  /-- The visits under way, the innermost first. -/
  frames : List (Frame S)
  /-- The declared sinks that have not been taken yet. -/
  waiting : List String
  moment : Moment S

/-- Makes a sink that forwards to the given handles. -/
def construct (d : Declaration) (kind : Kind) (forwards : List S) : Plan S P L S := do
  prepare d kind
  let sink ← Plan.ask (.createSink d.name kind forwards)
  assignLevel d sink
  Plan.report (sinkReport .debug "sink built"
    [("sink", .text d.name), ("kind", .shown d.family.name)])
  return sink

namespace Descent

def start (ds : List Declaration) : Descent S :=
  ⟨.start, [], [], ds.map Declaration.name, .onward⟩

/-- Begins the visit of a sink. A sink that is done is looked up in the map; one without a handle
there is worked on as if it were new. -/
def enter (ds : List Declaration) (r : Descent S) (name : String) : Plan S P L (Descent S) :=
  match r.progress.mark? name, r.handles.lookup name with
  | some .done, some sink => pure { r with moment := .leave name sink }
  | some .active, _ => .fail (.sinkCycle (r.progress.cycle name))
  | _, _ =>
    match Declaration.find? ds name with
    | none => .fail (.unknownSink name)
    | some d => do
      Plan.report (sinkReport .trace "resolving sink"
        [("sink", .text name), ("depth", .unsigned r.progress.path.length)])
      let kind ← (Plan.ofSetup (Kind.decode d.family d.table)).within (.sink name)
      return { r with
        progress := r.progress.enter name
        frames := ⟨d, kind, [], kind.targets⟩ :: r.frames
        moment := .onward }

/-- Goes on with the sink that is worked on last, by visiting its next target or, when there is none
left, by making it; without such a sink, goes on with the next declared one. -/
def goOn (ds : List Declaration) (r : Descent S) : Plan S P L (Descent S) :=
  match r.frames, r.waiting with
  | ⟨d, kind, forwards, target :: targets⟩ :: frames, _ =>
    match Declaration.find? ds target with
    | none => .fail (.within (.sink d.name) (.unknownTarget target d.name))
    | some _ =>
      pure { r with frames := ⟨d, kind, forwards, targets⟩ :: frames, moment := .enter target }
  | ⟨d, kind, forwards, []⟩ :: frames, _ => do
    let sink ← (construct d kind forwards).within (.sink d.name)
    return { r with
      progress := r.progress.leave d kind
      handles := writeNamed d.name sink r.handles
      frames := frames
      moment := .leave d.name sink }
  | [], name :: names => pure { r with waiting := names, moment := .enter name }
  | [], [] => pure r

/-- Hands a handle to the sink that waits for it. -/
def receive (r : Descent S) (sink : S) : Descent S :=
  match r.frames with
  | f :: frames =>
    { r with frames := { f with forwards := f.forwards ++ [sink] } :: frames, moment := .onward }
  | [] => { r with moment := .onward }

/-- One turn of a descent. -/
def turn (ds : List Declaration) (r : Descent S) : Plan S P L (Descent S) :=
  match r.moment with
  | .enter name => r.enter ds name
  | .leave _ sink => pure (r.receive sink)
  | .onward => r.goOn ds

/-- The sinks that were made, in order, with the handles that the map has for them. -/
def table (r : Descent S) : SinkTable S :=
  r.progress.made.filterMap fun name => (r.handles.lookup name).map fun sink => (name, sink)

/-- What a descent has come to when nothing is left to be done. -/
def result? (r : Descent S) : Option (SinkTable S) :=
  match r.moment, r.frames, r.waiting with
  | .onward, [], [] => some r.table
  | _, _, _ => none

/-- So many turns, or fewer if the descent ends before; without a result if it does not end. -/
def turns (ds : List Declaration) : Nat → Descent S → Plan S P L (Option (SinkTable S))
  | 0, r => pure r.result?
  | k + 1, r =>
    match r.result? with
    | some table => pure (some table)
    | none => r.turn ds >>= turns ds k

/-- The points that a backend lets a descent come to, with its states there. -/
inductive Reached (b : Backend σ S P L) (ds : List Declaration) (s₀ : σ) :
    Descent S → σ → Prop where
  | start : Reached b ds s₀ (start ds) s₀
  | turn {r r' : Descent S} {s : σ} (here : Reached b ds s₀ r s)
      (goes : ((r.turn ds).run b s).result = .ok r') :
      Reached b ds s₀ r' ((r.turn ds).run b s).state

/-! ## What every turn keeps -/

/-- What is known when a visit begins or has ended. -/
def Fits (ds : List Declaration) (r : Descent S) : Moment S → Prop
  | .enter name => name ∈ ds.map Declaration.name ∧ r.progress.LeadsTo ds name
  | .leave name sink => r.handles.lookup name = some sink
  | .onward => True

/-- The map, the frames and the progress agree. -/
structure Sound (ds : List Declaration) (r : Descent S) : Prop where
  progress : r.progress.Sound ds
  stored : ∀ n, (r.handles.lookup n).isSome ↔ n ∈ r.progress.made
  onPath : r.frames.map (fun f => f.declaration.name) = r.progress.path.reverse
  decoded : ∀ f ∈ r.frames, Declaration.find? ds f.declaration.name = some f.declaration ∧
    Kind.decode f.declaration.family f.declaration.table = .ok f.kind ∧
    f.waiting ⊆ f.kind.targets
  declared : ∀ n ∈ r.waiting, n ∈ ds.map Declaration.name
  moment : r.Fits ds r.moment

variable {ds : List Declaration} {r : Descent S} {name : String} {sink : S}
  {before : List (Attempt σ S P L)}

/-- At the start nothing has been marked, and map and stack are empty. -/
theorem sound_start : (start ds : Descent S).Sound ds where
  progress := .start
  stored := by simp [start, Progress.start]
  onPath := rfl
  decoded := by simp [start]
  declared := fun _ mem => mem
  moment := trivial

/-- A visit begins for a declared sink, to which the path leads. -/
theorem Sound.entered (sound : r.Sound ds) (now : r.moment = .enter name) :
    name ∈ ds.map Declaration.name ∧ r.progress.LeadsTo ds name := by
  have fits := sound.moment
  rwa [now] at fits

/-- The declaration of a visit that begins is found. -/
theorem Sound.found (sound : r.Sound ds) (now : r.moment = .enter name) :
    ∃ d, Declaration.find? ds name = some d :=
  exists_find?_of_mem (sound.entered now).1

/-- A sink that is done has a handle. -/
theorem Sound.held (sound : r.Sound ds) (marked : r.progress.mark? name = some .done) :
    ∃ sink, r.handles.lookup name = some sink :=
  Option.isSome_iff_exists.mp ((sound.stored name).mpr ((sound.progress.done name).mp marked))

/-- The sink that is worked on last is that of the innermost visit. -/
theorem Sound.path_eq (sound : r.Sound ds) {f : Frame S} {frames : List (Frame S)}
    (under : r.frames = f :: frames) :
    r.progress.path = (frames.map fun f => f.declaration.name).reverse ++ [f.declaration.name] := by
  have onPath := sound.onPath
  rw [under, List.map_cons] at onPath
  rw [← List.reverse_reverse r.progress.path, ← onPath, List.reverse_cons]

/-- Without a visit under way every name may be visited. -/
theorem Sound.leadsTo_of_idle (sound : r.Sound ds) (idle : r.frames = []) (name : String) :
    r.progress.LeadsTo ds name := by
  have onPath := sound.onPath
  rw [idle] at onPath
  have path : r.progress.path = [] := List.reverse_eq_nil_iff.mp onPath.symm
  intro last isLast
  rw [path] at isLast
  cases isLast

/-- The beginning of a visit ends it at once, fails, or begins the work on a new sink. -/
theorem enter_sound (sound : r.Sound ds) (now : r.moment = .enter name) :
    (r.enter ds name : Plan S P L (Descent S)).Ensures before (fun r' _ => r'.Sound ds)
      fun _ _ => True := by
  obtain ⟨declared, leads⟩ := sound.entered now
  cases marked : r.progress.mark? name with
  | some mark =>
    cases mark with
    | active =>
      simp only [enter, marked]
      trivial
    | done =>
      obtain ⟨sink, held⟩ := sound.held marked
      simp only [enter, marked, held]
      exact { sound with moment := held }
  | none =>
    obtain ⟨d, found⟩ := sound.found now
    simp only [enter, marked, found]
    rw [Plan.Ensures, Plan.meets_bind, Plan.meets_report, Plan.meets_bind, Plan.within,
      Plan.meets_mapError, Plan.meets_ofSetup]
    refine ⟨fun _ _ => trivial, fun kind decoded => ?_⟩
    obtain ⟨-, rfl⟩ := find?_eq_some found
    exact {
      progress := sound.progress.enter marked declared leads
      stored := sound.stored
      onPath := by simp [Progress.enter, sound.onPath]
      decoded := by
        intro f mem
        rcases List.mem_cons.mp mem with rfl | mem
        · exact ⟨found, decoded, List.Subset.refl _⟩
        · exact sound.decoded f mem
      declared := sound.declared
      moment := trivial }

/-- Making the sink that is worked on last, whose targets are all there. -/
theorem Sound.make (sound : r.Sound ds) {d : Declaration} {kind : Kind} {forwards : List S}
    {waiting : List String} {frames : List (Frame S)}
    (under : r.frames = ⟨d, kind, forwards, waiting⟩ :: frames) (sink : S) :
    Sound ds { r with
      progress := r.progress.leave d kind
      handles := writeNamed d.name sink r.handles
      frames := frames
      moment := .leave d.name sink } where
  progress := by
    obtain ⟨found, decoded, -⟩ := sound.decoded _ (under ▸ List.mem_cons_self)
    exact sound.progress.leave (sound.path_eq under) found decoded
  stored := by
    intro n
    rw [lookup_writeNamed]
    by_cases same : n = d.name
    · simp [Progress.leave, same]
    · simpa [Progress.leave, same] using sound.stored n
  onPath := by simp [Progress.leave, sound.path_eq under]
  decoded := fun f mem => sound.decoded f (under ▸ List.mem_cons_of_mem _ mem)
  declared := sound.declared
  moment := by
    change (writeNamed d.name sink r.handles).lookup d.name = some sink
    rw [lookup_writeNamed, if_pos rfl]

/-- Turning to the next target of the sink that is worked on last. -/
theorem Sound.next (sound : r.Sound ds) {d d' : Declaration} {kind : Kind} {forwards : List S}
    {target : String} {targets : List String} {frames : List (Frame S)}
    (under : r.frames = ⟨d, kind, forwards, target :: targets⟩ :: frames)
    (known : Declaration.find? ds target = some d') :
    Sound ds { r with
      frames := ⟨d, kind, forwards, targets⟩ :: frames
      moment := .enter target } := by
  obtain ⟨found, decoded, waits⟩ := sound.decoded _ (under ▸ List.mem_cons_self)
  obtain ⟨mem, rfl⟩ := find?_eq_some known
  exact {
    progress := sound.progress
    stored := sound.stored
    onPath := by simpa [under] using sound.onPath
    decoded := by
      intro f mem
      rcases List.mem_cons.mp mem with rfl | mem
      · exact ⟨found, decoded, fun t here => waits (List.mem_cons_of_mem _ here)⟩
      · exact sound.decoded f (under ▸ List.mem_cons_of_mem _ mem)
    declared := sound.declared
    moment := by
      refine ⟨List.mem_map_of_mem mem, fun last isLast => ?_⟩
      rw [sound.path_eq under, List.getLast?_append, List.getLast?_singleton, Option.some_or,
        Option.mem_some] at isLast
      rw [← isLast, targetsOf_eq found decoded]
      exact waits List.mem_cons_self }

/-- Going on makes a sink whose targets are there, turns to a target, takes the next declared sink,
or is done; what is known is kept by each. -/
theorem goOn_sound (sound : r.Sound ds) :
    (r.goOn ds : Plan S P L (Descent S)).Ensures before (fun r' _ => r'.Sound ds)
      fun _ _ => True := by
  rcases under : r.frames with _ | ⟨⟨d, kind, forwards, _ | ⟨target, targets⟩⟩, frames⟩
  · rcases left : r.waiting with _ | ⟨name, names⟩
    · simp only [goOn, under, left]
      exact sound
    · have declared := sound.declared
      rw [left] at declared
      simp only [goOn, under, left]
      exact {
        progress := sound.progress
        stored := sound.stored
        onPath := under ▸ sound.onPath
        decoded := under ▸ sound.decoded
        declared := fun n mem => declared n (List.mem_cons_of_mem _ mem)
        moment := ⟨declared name List.mem_cons_self, sound.leadsTo_of_idle under name⟩ }
  · simp only [goOn, under]
    rw [Plan.Ensures, Plan.meets_bind]
    exact (Plan.ensures_true _).imp (fun sink _ _ => sound.make under sink) fun _ _ _ => trivial
  · simp only [goOn, under]
    cases known : Declaration.find? ds target with
    | none => trivial
    | some d' => exact sound.next under known

/-- Handing over a handle keeps what is known. -/
theorem receive_sound (sound : r.Sound ds) (sink : S) : (r.receive sink).Sound ds := by
  rcases under : r.frames with _ | ⟨f, frames⟩
  · simp only [receive, under]
    exact { sound with
      onPath := under ▸ sound.onPath
      decoded := under ▸ sound.decoded
      moment := trivial }
  · simp only [receive, under]
    exact {
      progress := sound.progress
      stored := sound.stored
      onPath := by simpa [under] using sound.onPath
      decoded := by
        intro g mem
        rcases List.mem_cons.mp mem with rfl | mem
        · exact sound.decoded f (under ▸ List.mem_cons_self)
        · exact sound.decoded g (under ▸ List.mem_cons_of_mem _ mem)
      declared := sound.declared
      moment := trivial }

/-- Every turn keeps what is known, whatever the backend answers. -/
theorem turn_sound (sound : r.Sound ds) :
    (r.turn ds : Plan S P L (Descent S)).Ensures before (fun r' _ => r'.Sound ds)
      fun _ _ => True := by
  rcases now : r.moment with name | ⟨name, sink⟩ | _ <;> simp only [turn, now]
  · exact enter_sound sound now
  · exact receive_sound sound sink
  · exact goOn_sound sound

/-- At every point that is reached, map, frames and progress agree. -/
theorem Reached.sound {b : Backend σ S P L} {s₀ s : σ} (reached : Reached b ds s₀ r s) :
    r.Sound ds := by
  induction reached with
  | start => exact sound_start
  | @turn r r' s here goes ih =>
    have ensures : (r.turn ds : Plan S P L (Descent S)).Ensures ([] : List (Attempt σ S P L))
        (fun r' _ => r'.Sound ds) fun _ _ => True := turn_sound ih
    exact (ensures.run b s).2 r' goes

/-! ## Every beginning and every end of a visit -/

/-- What holds of a descent at every point. -/
structure InOrder (ds : List Declaration) (r : Descent S) : Prop where
  /-- The sinks that are marked as done are those on the list of the made ones. -/
  done : ∀ n, r.progress.mark? n = some .done ↔ n ∈ r.progress.made
  /-- The names of the map are those of the list. -/
  stored : ∀ n, (∃ sink, r.handles.lookup n = some sink) ↔ n ∈ r.progress.made
  madeOnce : r.progress.made.Nodup
  madeDeclared : ∀ n ∈ r.progress.made, n ∈ ds.map Declaration.name
  /-- The sinks that are marked as being worked on are those on the path. -/
  active : ∀ n, r.progress.mark? n = some .active ↔ n ∈ r.progress.path
  pathOnce : r.progress.path.Nodup
  pathDeclared : ∀ n ∈ r.progress.path, n ∈ ds.map Declaration.name
  /-- Each sink on the path has the next one among its targets. -/
  chain : r.progress.path.IsChain fun a b => b ∈ targetsOf ds a
  /-- The visits under way are those of the sinks on the path. -/
  onPath : r.frames.map (fun f => f.declaration.name) = r.progress.path.reverse
  /-- A visit is part of no more visits than there are declarations. -/
  depth : r.frames.length ≤ ds.length
  /-- A visit begins for a declared sink. One that is done has a handle, and only one that closes a
  cycle may find as many visits under way as there are declarations. -/
  entered : ∀ name, r.moment = .enter name →
    (∃ d, Declaration.find? ds name = some d) ∧
      (r.progress.mark? name = some .done → ∃ sink, r.handles.lookup name = some sink) ∧
      (r.progress.mark? name ≠ some .active → r.frames.length < ds.length)
  /-- A visit ends with the handle that the map has for its sink. -/
  left : ∀ name sink, r.moment = .leave name sink →
    r.progress.mark? name = some .done ∧ r.handles.lookup name = some sink

/-- There is a declared sink left that is not on the path when a visit begins that closes no
cycle. -/
theorem Sound.path_length_lt (sound : r.Sound ds) (now : r.moment = .enter name)
    (fresh : r.progress.mark? name ≠ some .active) : r.progress.path.length < ds.length := by
  have apart : name ∉ r.progress.path := fun mem =>
    fresh ((sound.progress.active name).mpr mem)
  have declared : name :: r.progress.path ⊆ ds.map Declaration.name :=
    List.cons_subset.mpr ⟨(sound.entered now).1, sound.progress.pathDeclared⟩
  have fits := (List.subperm_of_subset (List.nodup_cons.mpr ⟨apart, sound.progress.pathOnce⟩)
    declared).length_le
  rw [List.length_map] at fits
  exact fits

/-- There are as many visits under way as sinks on the path. -/
theorem Sound.length_frames (sound : r.Sound ds) :
    r.frames.length = r.progress.path.length := by
  have lengths := congrArg List.length sound.onPath
  rwa [List.length_map, List.length_reverse] at lengths

/-- Where map, frames and progress agree, the descent is in order. -/
theorem Sound.inOrder (sound : r.Sound ds) : r.InOrder ds where
  done := sound.progress.done
  stored := fun n => Option.isSome_iff_exists.symm.trans (sound.stored n)
  madeOnce := sound.progress.madeOnce
  madeDeclared := sound.progress.madeDeclared
  active := sound.progress.active
  pathOnce := sound.progress.pathOnce
  pathDeclared := sound.progress.pathDeclared
  chain := sound.progress.chain
  onPath := sound.onPath
  depth := sound.length_frames ▸ sound.progress.path_length_le
  entered := fun _ now =>
    ⟨sound.found now, sound.held, fun apart => sound.length_frames ▸ sound.path_length_lt now apart⟩
  left := by
    intro name sink now
    have held : r.handles.lookup name = some sink := by
      have fits := sound.moment
      rwa [now] at fits
    have made := (sound.stored name).mp (Option.isSome_of_eq_some held)
    exact ⟨(sound.progress.done name).mpr made, held⟩

/-- Whatever the backend does, the descents that come about are in order. -/
theorem Reached.inOrder {b : Backend σ S P L} {s₀ s : σ} (reached : Reached b ds s₀ r s) :
    r.InOrder ds :=
  reached.sound.inOrder

end Descent

end LogTopology.Sink
