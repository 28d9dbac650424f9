import SmallGateway.Fleet

/-!
The walk of a rollout over the waves of a plan (`gatewayctl/src/{rollout,canary_rollout}.rs`): wave by wave every
node is pushed its own desired render, and the wave must acknowledge it whole; the first wave that does not
freezes all later ones. With a canary policy a wave that acknowledged is analysed before it counts as advanced,
and a wave that fails the analysis is pushed the prior render.

What the walk meets while it runs is given as a `World`: the labels and the stream of a node when it is pushed,
its answer, the verdict of the analysis, and whether an approval ever appears. They are read by the number of
pushes made so far, so that they may change at every push.
-/

namespace SmallGateway

/-- One push of a walk, and whether the node had a stream to put it on. -/
structure Push where
  snapshot : RenderedSnapshot
  delivered : Bool
  deriving DecidableEq

/-- The verdict of a canary analysis; a failure names the metric that tripped it. -/
inductive Analysis
  | pass
  | fail (breach : String)
  | noData
  deriving DecidableEq

structure World where
  labels : Nat → String → Option Labels
  reachable : Nat → String → Bool
  answer : Nat → RenderedSnapshot → AckResult
  analysis : Nat → Analysis
  approved : String → Bool

/-- The fleet and the pushes made so far. -/
structure RolloutState where
  fleet : Fleet
  pushes : List Push

/-- The commit a wave is on after the attempt, and how it came there. -/
inductive WaveStepState
  | advanced (commit : String)
  | halted (commit : String) (divergences : List Divergence)
  | frozen (commit : String)
  | empty
  deriving DecidableEq

structure WaveStep where
  waveName : String
  nodeCount : Nat
  state : WaveStepState
  deriving DecidableEq

inductive WaveAnalysis
  | notAnalyzed
  | passed
  | failed (breach : String)
  | noData
  deriving DecidableEq

structure Rollback where
  waveName : String
  breach : Option String
  revertedTo : String
  deriving DecidableEq

/-- What a walk has collected. -/
structure Walk where
  state : RolloutState
  steps : List WaveStep
  analyses : List WaveAnalysis
  haltedAt : Option Nat
  rollback : Option Rollback
  gatesReleased : List String

def Walk.new (fleet : Fleet) : Walk := ⟨⟨fleet, []⟩, [], [], none, none, []⟩

/-- Some wave has halted or was rolled back. -/
def Walk.stopped (walk : Walk) : Bool := walk.haltedAt.isSome || walk.rollback.isSome

/-! ### One wave -/

/-- Mints a version and pushes a render to one node. A node without a stream is silent. -/
def pushTo (world : World) (s : RolloutState) (nodeId : String) (rendered : Rendered) :
    Nat × AckResult × RolloutState :=
  let (version, fleet) := s.fleet.nextVersionFor nodeId rendered.renderHash
  let snapshot := rendered.toSnapshot nodeId version
  let delivered := world.reachable s.pushes.length nodeId
  (version, if delivered then world.answer s.pushes.length snapshot else .silent,
    ⟨fleet, s.pushes ++ [⟨snapshot, delivered⟩]⟩)

/-- The node's own desired render; the applied one when its labels are unknown. -/
def desiredForNode (texts : RenderTexts) (world : World) (s : RolloutState) (nodeId : String) :
    Rendered × RolloutState :=
  match world.labels s.pushes.length nodeId with
  | some labels =>
    let (rendered, fleet) := s.fleet.desiredFor texts labels
    (rendered, { s with fleet })
  | none => (s.fleet.applied, s)

/-- The pushes of a wave: what each node was pushed, the highest version of the wave, and the answers. -/
structure WavePushes where
  state : RolloutState
  version : Nat
  expected : List (String × String)
  results : List (String × AckResult)

def pushDesired (texts : RenderTexts) (world : World) (wave : WavePushes) (nodeId : String) : WavePushes :=
  let (rendered, s) := desiredForNode texts world wave.state nodeId
  let (version, result, s) := pushTo world s nodeId rendered
  ⟨s, max wave.version version, wave.expected ++ [(nodeId, rendered.renderHash)], wave.results ++ [(nodeId, result)]⟩

/-- Pushes every node of a wave its own desired render and adjudicates the answers. -/
def runWaveNodes (texts : RenderTexts) (world : World) (s : RolloutState) (nodeIds : List String) :
    WaveOutcome × RolloutState :=
  let wave := nodeIds.foldl (pushDesired texts world) ⟨s, s.fleet.committedVersion, [], []⟩
  let outcomeHash := (wave.expected.head?.map (·.2)).getD ""
  let (outcome, fleet) := wave.state.fleet.concludeWaveMulti outcomeHash wave.expected wave.version wave.results
  (outcome, { wave.state with fleet })

/-- Records a wave back on its prior commit and pushes its nodes the prior render, where there is one. -/
def rollbackWave (world : World) (s : RolloutState) (waveName : String) (nodeIds : List String)
    (priorCommit : String) (priorRender : Option Rendered) : RolloutState :=
  let s := { s with fleet := s.fleet.revertWaveCommit waveName priorCommit }
  match priorRender with
  | none => s
  | some prior => nodeIds.foldl (fun s nodeId => (pushTo world s nodeId prior).2.2) s

section
variable (texts : RenderTexts) (world : World)

theorem desiredForNode_frame (s : RolloutState) (nodeId : String) :
    s.fleet.SameRecord (desiredForNode texts world s nodeId).2.fleet ∧
      (desiredForNode texts world s nodeId).2.fleet.perNode = s.fleet.perNode ∧
      (desiredForNode texts world s nodeId).2.fleet.committedVersion = s.fleet.committedVersion ∧
      (desiredForNode texts world s nodeId).2.pushes = s.pushes := by
  cases known : world.labels s.pushes.length nodeId with
  | none =>
    simpa only [desiredForNode, known, and_true] using Fleet.SameRecord.refl s.fleet
  | some labels =>
    simp only [desiredForNode, known]
    have versions := s.fleet.desiredFor_versions texts labels
    exact ⟨s.fleet.desiredFor_sameRecord texts labels, versions.1, versions.2, trivial⟩

/-- A wave touches neither what is desired nor the commits of the waves; each of its nodes gets one push. -/
theorem pushDesired_frame (wave : WavePushes) (nodeId : String) :
    wave.state.fleet.SameRecord (pushDesired texts world wave nodeId).state.fleet ∧
      (pushDesired texts world wave nodeId).state.fleet.committedVersion = wave.state.fleet.committedVersion ∧
      (pushDesired texts world wave nodeId).state.pushes.length = wave.state.pushes.length + 1 := by
  obtain ⟨record, -, version, pushes⟩ := desiredForNode_frame texts world wave.state nodeId
  refine ⟨record.trans (Fleet.nextVersionFor_sameRecord _ _ _), version, ?_⟩
  simp [pushDesired, pushTo, pushes]

theorem foldl_pushDesired_frame (wave : WavePushes) (nodeIds : List String) :
    let pushed := nodeIds.foldl (pushDesired texts world) wave
    wave.state.fleet.SameRecord pushed.state.fleet ∧
      pushed.state.fleet.committedVersion = wave.state.fleet.committedVersion ∧
      pushed.state.pushes.length = wave.state.pushes.length + nodeIds.length := by
  induction nodeIds generalizing wave with
  | nil => exact ⟨.refl _, rfl, rfl⟩
  | cons nodeId nodeIds ih =>
    obtain ⟨record, version, length⟩ := pushDesired_frame texts world wave nodeId
    obtain ⟨recordAfter, versionAfter, lengthAfter⟩ := ih (pushDesired texts world wave nodeId)
    refine ⟨record.trans recordAfter, versionAfter.trans version, ?_⟩
    rw [List.foldl_cons, lengthAfter, length, List.length_cons]
    omega

theorem runWaveNodes_frame (s : RolloutState) (nodeIds : List String) :
    s.fleet.SameRecord (runWaveNodes texts world s nodeIds).2.fleet ∧
      (runWaveNodes texts world s nodeIds).2.pushes.length = s.pushes.length + nodeIds.length := by
  obtain ⟨record, -, length⟩ :=
    foldl_pushDesired_frame texts world ⟨s, s.fleet.committedVersion, [], []⟩ nodeIds
  exact ⟨record.trans (Fleet.concludeWaveMulti_sameRecord _ _ _ _ _), length⟩

/-- The desired render of every node of a wave, each at its turn. -/
def waveRenders (texts : RenderTexts) (world : World) : RolloutState → List String → List (String × Rendered)
  | _, [] => []
  | s, nodeId :: nodeIds =>
    let (rendered, s) := desiredForNode texts world s nodeId
    (nodeId, rendered) :: waveRenders texts world (pushTo world s nodeId rendered).2.2 nodeIds

theorem waveRenders_nodes (s : RolloutState) (nodeIds : List String) :
    (waveRenders texts world s nodeIds).map (·.1) = nodeIds := by
  induction nodeIds generalizing s with
  | nil => rfl
  | cons nodeId nodeIds ih => simp only [waveRenders, List.map_cons, ih]

/-- The highest version of a wave is bounded by what bounds the version of each of its nodes. -/
theorem foldl_pushDesired_version {nodeIds : List String} (distinct : nodeIds.Nodup) (wave : WavePushes)
    (bound : Nat) :
    (nodeIds.foldl (pushDesired texts world) wave).version ≤ bound ↔
      wave.version ≤ bound ∧ ∀ entry ∈ waveRenders texts world wave.state nodeIds,
        wave.state.fleet.mintedVersion entry.1 entry.2.renderHash ≤ bound := by
  induction nodeIds generalizing wave with
  | nil => simp [waveRenders]
  | cons nodeId nodeIds ih =>
    obtain ⟨fresh, distinct⟩ := List.nodup_cons.mp distinct
    obtain ⟨-, perNode, -, -⟩ := desiredForNode_frame texts world wave.state nodeId
    have own (hash : String) :
        (desiredForNode texts world wave.state nodeId).2.fleet.mintedVersion nodeId hash =
          wave.state.fleet.mintedVersion nodeId hash :=
      Fleet.mintedVersion_congr (congrArg (·[nodeId]?) perNode) hash
    have others : ∀ entry ∈ waveRenders texts world (pushDesired texts world wave nodeId).state nodeIds,
        (pushDesired texts world wave nodeId).state.fleet.mintedVersion entry.1 entry.2.renderHash =
          wave.state.fleet.mintedVersion entry.1 entry.2.renderHash := by
      intro entry inside
      have listed : entry.1 ∈ nodeIds := by
        rw [← waveRenders_nodes texts world (pushDesired texts world wave nodeId).state nodeIds]
        exact List.mem_map_of_mem inside
      have different : entry.1 ≠ nodeId := fun same => fresh (same ▸ listed)
      refine Fleet.mintedVersion_congr ?_ _
      exact (Fleet.nextVersionFor_other _ _ different).trans (congrArg (·[entry.1]?) perNode)
    rw [List.foldl_cons, ih distinct]
    have split : (pushDesired texts world wave nodeId).version ≤ bound ↔ wave.version ≤ bound ∧
        wave.state.fleet.mintedVersion nodeId (desiredForNode texts world wave.state nodeId).1.renderHash ≤ bound := by
      rw [← own]
      exact Nat.max_le
    rw [split, and_assoc]
    refine and_congr_right fun _ => ?_
    have renders : waveRenders texts world wave.state (nodeId :: nodeIds) =
        (nodeId, (desiredForNode texts world wave.state nodeId).1) ::
          waveRenders texts world (pushDesired texts world wave nodeId).state nodeIds := rfl
    rw [renders, List.forall_mem_cons]
    exact and_congr_right fun _ => forall₂_congr fun entry inside => by rw [others entry inside]

/-- A wave that commits keeps the committed version exactly when none of its nodes got a higher one. -/
theorem runWaveNodes_committedVersion {s : RolloutState} {nodeIds : List String} (distinct : nodeIds.Nodup)
    {hash : String} {nodeCount : Nat} (committed : (runWaveNodes texts world s nodeIds).1 = .committed hash nodeCount) :
    (runWaveNodes texts world s nodeIds).2.fleet.committedVersion = s.fleet.committedVersion ↔
      ∀ entry ∈ waveRenders texts world s nodeIds,
        s.fleet.mintedVersion entry.1 entry.2.renderHash ≤ s.fleet.committedVersion := by
  have version := Fleet.concludeWaveMulti_committed committed
  have raised : s.fleet.committedVersion ≤
      (nodeIds.foldl (pushDesired texts world) ⟨s, s.fleet.committedVersion, [], []⟩).version :=
    ((foldl_pushDesired_version texts world distinct ⟨s, s.fleet.committedVersion, [], []⟩ _).mp le_rfl).1
  have bounded := foldl_pushDesired_version texts world distinct
    ⟨s, s.fleet.committedVersion, [], []⟩ s.fleet.committedVersion
  have settled : (runWaveNodes texts world s nodeIds).2.fleet.committedVersion =
      (nodeIds.foldl (pushDesired texts world) ⟨s, s.fleet.committedVersion, [], []⟩).version := version
  rw [settled]
  constructor
  · intro same
    exact (bounded.mp same.le).2
  · intro minted
    exact le_antisymm (bounded.mpr ⟨le_rfl, minted⟩) raised

/-- The pushes of the prior render, one for each node in order. -/
theorem foldl_pushTo_pushes (prior : Rendered) (s : RolloutState) (nodeIds : List String) :
    ∃ pushes : List Push,
      (nodeIds.foldl (fun s nodeId => (pushTo world s nodeId prior).2.2) s).pushes = s.pushes ++ pushes ∧
      pushes.map (fun push => (push.snapshot.nodeId, push.snapshot.config, push.delivered)) =
        (nodeIds.zipIdx s.pushes.length).map fun (nodeId, turn) =>
          (nodeId, prior.configBytes, world.reachable turn nodeId) := by
  induction nodeIds generalizing s with
  | nil => exact ⟨[], by simp⟩
  | cons nodeId nodeIds ih =>
    obtain ⟨pushes, appended, contents⟩ := ih (pushTo world s nodeId prior).2.2
    let first : Push := ⟨prior.toSnapshot nodeId (s.fleet.mintedVersion nodeId prior.renderHash),
      world.reachable s.pushes.length nodeId⟩
    have pushed : (pushTo world s nodeId prior).2.2.pushes = s.pushes ++ [first] := rfl
    refine ⟨first :: pushes, ?_, ?_⟩
    · rw [List.foldl_cons, appended, pushed, List.append_assoc, List.singleton_append]
    · rw [List.map_cons, contents, pushed, List.length_append, List.length_singleton, List.zipIdx_cons, List.map_cons]
      rfl

theorem foldl_pushTo_frame (prior : Rendered) (s : RolloutState) (nodeIds : List String) :
    s.fleet.SameRecord (nodeIds.foldl (fun s nodeId => (pushTo world s nodeId prior).2.2) s).fleet ∧
      (nodeIds.foldl (fun s nodeId => (pushTo world s nodeId prior).2.2) s).fleet.committedVersion =
        s.fleet.committedVersion := by
  induction nodeIds generalizing s with
  | nil => exact ⟨.refl _, rfl⟩
  | cons nodeId nodeIds ih =>
    obtain ⟨record, version⟩ := ih (pushTo world s nodeId prior).2.2
    exact ⟨(Fleet.nextVersionFor_sameRecord _ _ _).trans record, version⟩

/-- A rollback leaves the committed version alone, and of the waves it touches its own commit only. -/
theorem rollbackWave_frame (s : RolloutState) (waveName : String) (nodeIds : List String) (priorCommit : String)
    (priorRender : Option Rendered) :
    (s.fleet.revertWaveCommit waveName priorCommit).SameRecord
        (rollbackWave world s waveName nodeIds priorCommit priorRender).fleet ∧
      (rollbackWave world s waveName nodeIds priorCommit priorRender).fleet.committedVersion =
        s.fleet.committedVersion := by
  cases priorRender with
  | none => exact ⟨.refl _, rfl⟩
  | some prior =>
    exact foldl_pushTo_frame world prior { s with fleet := s.fleet.revertWaveCommit waveName priorCommit } nodeIds

end

/-! ### The walk -/

/-- A wave that is not pushed: frozen behind a stop, or without nodes. -/
def Walk.pass (walk : Walk) (wave : AssignedWave) (state : WaveStepState) (nodeCount : Nat) : Walk :=
  { walk with
    steps := walk.steps ++ [⟨wave.name, nodeCount, state⟩]
    analyses := walk.analyses ++ [.notAnalyzed] }

/-- One wave of the plain walk. -/
def planStep (texts : RenderTexts) (world : World) (targetCommit : String) (walk : Walk)
    (entry : AssignedWave × Nat) : Walk :=
  let (wave, idx) := entry
  if walk.stopped then
    walk.pass wave (.frozen (walk.state.fleet.frozenCommit wave.name)) wave.nodeIds.length
  else if wave.nodeIds.isEmpty then walk.pass wave .empty 0
  else
    match runWaveNodes texts world walk.state wave.nodeIds with
    | (.committed _ nodeCount, s) =>
      { walk with state := { s with fleet := s.fleet.setWaveCommit wave.name targetCommit } }.pass wave
        (.advanced targetCommit) nodeCount
    | (.halted _ divergences, s) =>
      { walk with state := s, haltedAt := some idx }.pass wave
        (.halted (s.fleet.frozenCommit wave.name) divergences) wave.nodeIds.length
    | (.noNodes _, s) => { walk with state := s }.pass wave .empty 0

/-- The walk without analysis. -/
def rollOutPlan (texts : RenderTexts) (world : World) (fleet : Fleet) (connected : List (String × Labels)) : Walk :=
  (fleet.wavePlan.assign connected).zipIdx.foldl (planStep texts world fleet.applied.sourceCommit) (.new fleet)

/-- A wave that failed its analysis, with the breach or without one. -/
def Walk.rolledBack (world : World) (walk : Walk) (wave : AssignedWave) (nodeCount : Nat)
    (priorRender : Option Rendered) (analysis : WaveAnalysis) (breach : Option String) : Walk :=
  let priorCommit := walk.state.fleet.frozenCommit wave.name
  { walk with
    state := rollbackWave world walk.state wave.name wave.nodeIds priorCommit priorRender
    steps := walk.steps ++ [⟨wave.name, nodeCount, .halted priorCommit []⟩]
    analyses := walk.analyses ++ [analysis]
    rollback := some ⟨wave.name, breach, priorCommit⟩ }

/-- One wave of the analysed walk, or nothing while it waits for an approval that never comes. -/
def canaryStep (texts : RenderTexts) (world : World) (policy : CanaryPolicy) (targetCommit : String)
    (priorRender : Option Rendered) (walk : Walk) (entry : AssignedWave × Nat) : Option Walk :=
  let (wave, idx) := entry
  if walk.stopped then
    some (walk.pass wave (.frozen (walk.state.fleet.frozenCommit wave.name)) wave.nodeIds.length)
  else if wave.nodeIds.isEmpty then some (walk.pass wave .empty 0)
  else
    match runWaveNodes texts world walk.state wave.nodeIds with
    | (.halted _ divergences, s) =>
      some ({ walk with state := s, haltedAt := some idx }.pass wave
        (.halted (s.fleet.frozenCommit wave.name) divergences) wave.nodeIds.length)
    | (.noNodes _, s) => some ({ walk with state := s }.pass wave .empty 0)
    | (.committed _ nodeCount, s) =>
      match world.analysis idx with
      | .fail breach =>
        some ({ walk with state := s }.rolledBack world wave nodeCount priorRender (.failed breach) (some breach))
      | .noData => some ({ walk with state := s }.rolledBack world wave nodeCount priorRender .noData none)
      | .pass =>
        let advanced := { walk with
          state := { s with fleet := s.fleet.setWaveCommit wave.name targetCommit }
          steps := walk.steps ++ [⟨wave.name, nodeCount, .advanced targetCommit⟩]
          analyses := walk.analyses ++ [.passed] }
        if !policy.gatesAfter wave.name then some advanced
        else if world.approved wave.name then
          some { advanced with gatesReleased := advanced.gatesReleased ++ [wave.name] }
        else none

/-- The walk with analysis; without a canary policy it is the plain one. -/
def rollOutPlanCanary (texts : RenderTexts) (world : World) (fleet : Fleet) (connected : List (String × Labels))
    (priorRender : Option Rendered) : Option Walk :=
  if !fleet.canary.enabled then some (rollOutPlan texts world fleet connected)
  else
    (fleet.wavePlan.assign connected).zipIdx.foldlM
      (canaryStep texts world fleet.canary fleet.applied.sourceCommit priorRender) (.new fleet)

/-! ### The waves of the analysed walk -/

/-- The walk gets to push the wave: nothing has stopped it, and the wave has nodes. -/
def Walk.Attempts (walk : Walk) (wave : AssignedWave) : Prop := walk.stopped = false ∧ wave.nodeIds ≠ []

/-- What the analysed walk has collected once a wave has advanced. -/
def Walk.advance (walk : Walk) (s : RolloutState) (wave : AssignedWave) (nodeCount : Nat) (target : String)
    (gatesReleased : List String) : Walk :=
  { walk with
    state := { s with fleet := s.fleet.setWaveCommit wave.name target }
    steps := walk.steps ++ [⟨wave.name, nodeCount, .advanced target⟩]
    analyses := walk.analyses ++ [.passed]
    gatesReleased }

/-- What the analysed walk makes of a wave. -/
inductive Taken (texts : RenderTexts) (world : World) (policy : CanaryPolicy) (target : String)
    (priorRender : Option Rendered) (walk : Walk) (wave : AssignedWave) (idx : Nat) : Walk → Prop
  | frozen (stopped : walk.stopped = true) :
      Taken texts world policy target priorRender walk wave idx
        (walk.pass wave (.frozen (walk.state.fleet.frozenCommit wave.name)) wave.nodeIds.length)
  | empty (running : walk.stopped = false) (none : wave.nodeIds = []) :
      Taken texts world policy target priorRender walk wave idx (walk.pass wave .empty 0)
  | halted (attempted : walk.Attempts wave) (hash : String) (divergences : List Divergence) (s : RolloutState)
      (ran : runWaveNodes texts world walk.state wave.nodeIds = (.halted hash divergences, s)) :
      Taken texts world policy target priorRender walk wave idx
        ({ walk with state := s, haltedAt := some idx }.pass wave
          (.halted (s.fleet.frozenCommit wave.name) divergences) wave.nodeIds.length)
  | rolledBack (attempted : walk.Attempts wave) (hash : String) (nodeCount : Nat) (s : RolloutState)
      (ran : runWaveNodes texts world walk.state wave.nodeIds = (.committed hash nodeCount, s))
      (failed : world.analysis idx ≠ .pass) (analysis : WaveAnalysis) (breach : Option String) :
      Taken texts world policy target priorRender walk wave idx
        ({ walk with state := s }.rolledBack world wave nodeCount priorRender analysis breach)
  | advanced (attempted : walk.Attempts wave) (hash : String) (nodeCount : Nat) (s : RolloutState)
      (ran : runWaveNodes texts world walk.state wave.nodeIds = (.committed hash nodeCount, s))
      (passed : world.analysis idx = .pass) (ungated : policy.gatesAfter wave.name = false) :
      Taken texts world policy target priorRender walk wave idx
        (walk.advance s wave nodeCount target walk.gatesReleased)
  | released (attempted : walk.Attempts wave) (hash : String) (nodeCount : Nat) (s : RolloutState)
      (ran : runWaveNodes texts world walk.state wave.nodeIds = (.committed hash nodeCount, s))
      (passed : world.analysis idx = .pass) (gated : policy.gatesAfter wave.name = true)
      (approved : world.approved wave.name = true) :
      Taken texts world policy target priorRender walk wave idx
        (walk.advance s wave nodeCount target (walk.gatesReleased ++ [wave.name]))

section
variable {texts : RenderTexts} {world : World} {policy : CanaryPolicy} {target : String}
  {priorRender : Option Rendered}

/-- Every node of a wave is answered for. -/
theorem foldl_pushDesired_results (wave : WavePushes) (nodeIds : List String) :
    (nodeIds.foldl (pushDesired texts world) wave).results.length = wave.results.length + nodeIds.length := by
  induction nodeIds generalizing wave with
  | nil => rfl
  | cons nodeId nodeIds ih =>
    rw [List.foldl_cons, ih]
    simp only [pushDesired, List.length_append, List.length_cons, List.length_nil]
    omega

theorem runWaveNodes_noNodes {s : RolloutState} {nodeIds : List String} {hash : String}
    (noNodes : (runWaveNodes texts world s nodeIds).1 = .noNodes hash) : nodeIds = [] := by
  have answers := @foldl_pushDesired_results texts world ⟨s, s.fleet.committedVersion, [], []⟩ nodeIds
  rw [Fleet.concludeWaveMulti_noNodes noNodes] at answers
  simpa [eq_comm] using answers

theorem canaryStep_taken {walk next : Walk} {wave : AssignedWave} {idx : Nat}
    (stepped : canaryStep texts world policy target priorRender walk (wave, idx) = some next) :
    Taken texts world policy target priorRender walk wave idx next := by
  simp only [canaryStep] at stepped
  split at stepped
  case isTrue stopped =>
    obtain rfl := Option.some.inj stepped
    exact .frozen stopped
  case isFalse running =>
  rw [Bool.not_eq_true] at running
  split at stepped
  case isTrue none =>
    obtain rfl := Option.some.inj stepped
    exact .empty running (List.isEmpty_iff.mp none)
  case isFalse some =>
  have attempted : walk.Attempts wave := ⟨running, fun none => some (List.isEmpty_iff.mpr none)⟩
  split at stepped
  case h_1 hash divergences s ran =>
    obtain rfl := Option.some.inj stepped
    exact .halted attempted hash divergences s ran
  case h_2 hash s ran => exact absurd (runWaveNodes_noNodes (congrArg Prod.fst ran)) attempted.2
  case h_3 hash nodeCount s ran =>
  split at stepped
  case h_1 breach failed =>
    obtain rfl := Option.some.inj stepped
    exact .rolledBack attempted hash nodeCount s ran (by simp [failed]) _ _
  case h_2 failed =>
    obtain rfl := Option.some.inj stepped
    exact .rolledBack attempted hash nodeCount s ran (by simp [failed]) _ _
  case h_3 passed =>
  split at stepped
  case isTrue ungated =>
    obtain rfl := Option.some.inj stepped
    exact .advanced attempted hash nodeCount s ran passed (by simpa using ungated)
  case isFalse gated =>
  split at stepped
  case isTrue approved =>
    obtain rfl := Option.some.inj stepped
    exact .released attempted hash nodeCount s ran passed (by simpa using gated) approved
  case isFalse => cases stepped

end

end SmallGateway
