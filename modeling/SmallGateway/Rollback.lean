import SmallGateway.Rollout

/-!
What a canary rollback undoes (`gatewayctl/src/{canary_rollout,fleet,main}.rs`: `roll_out_plan_canary`,
`rollback_wave`, `conclude_wave_multi`, `reload_and_roll`). A wave that acknowledges raises the committed version
before it is analysed, and the rollback does not lower it again. The render that a rollback pushes is the
fleet-wide one of the last apply, whichever render a node was on. So a rollback undoes the wave exactly when no
node of the wave got a version above the committed one, and every node was on that fleet-wide render
(`rollback_undoes_iff`).
-/

namespace SmallGateway

/-! ### The walk around a rollback -/

section
variable {texts : RenderTexts} {world : World} {policy : CanaryPolicy} {targetCommit : String}
  {priorRender : Option Rendered}

/-- Behind a stop the analysed walk only records frozen waves. -/
theorem canaryStep_stopped {walk : Walk} (stopped : walk.stopped = true) (wave : AssignedWave) (idx : Nat) :
    canaryStep texts world policy targetCommit priorRender walk (wave, idx) =
      some (walk.pass wave (.frozen (walk.state.fleet.frozenCommit wave.name)) wave.nodeIds.length) := by
  simp only [canaryStep, stopped, if_true]

theorem foldlM_canaryStep_stopped {waves : List (AssignedWave × Nat)} {walk final : Walk}
    (stopped : walk.stopped = true)
    (walked : waves.foldlM (canaryStep texts world policy targetCommit priorRender) walk = some final) :
    final.state = walk.state := by
  induction waves generalizing walk with
  | nil =>
    simp only [List.foldlM_nil, Option.pure_def, Option.some.injEq] at walked
    exact congrArg Walk.state walked.symm
  | cons entry waves ih =>
    rw [List.foldlM_cons, canaryStep_stopped stopped entry.1 entry.2, Option.bind_eq_bind,
      Option.bind_some] at walked
    have remains : (walk.pass entry.1 (.frozen (walk.state.fleet.frozenCommit entry.1.name))
      entry.1.nodeIds.length).stopped = true := stopped
    have later := ih remains walked
    exact later

/-- A step of the walk that rolls its wave back: the wave was pushed and acknowledged, then rolled back to the
    commit that it was recorded on. -/
theorem canaryStep_rolledBack {walk after : Walk} {wave : AssignedWave} {idx : Nat}
    (before : walk.rollback = none)
    (stepped : canaryStep texts world policy targetCommit priorRender walk (wave, idx) = some after)
    (rolledBack : after.rollback.isSome) :
    after.stopped = true ∧ ∃ hash nodeCount,
      (runWaveNodes texts world walk.state wave.nodeIds).1 = .committed hash nodeCount ∧
      after.state = rollbackWave world (runWaveNodes texts world walk.state wave.nodeIds).2 wave.name wave.nodeIds
        ((runWaveNodes texts world walk.state wave.nodeIds).2.fleet.frozenCommit wave.name) priorRender := by
  have stops : after.stopped = true := by simp [Walk.stopped, rolledBack]
  refine ⟨stops, ?_⟩
  cases canaryStep_taken stepped with
  | frozen | empty | halted =>
    rw [Walk.pass, before] at rolledBack
    cases rolledBack
  | advanced | released =>
    rw [Walk.advance, before] at rolledBack
    cases rolledBack
  | rolledBack attempted hash nodeCount s ran =>
    rw [ran]
    exact ⟨hash, nodeCount, rfl, rfl⟩

end

/-! ### The undo -/

/-- The analysed walk of a rollout reaches a wave at `before`, rolls that wave back and ends at `final`. -/
structure RollsBack (texts : RenderTexts) (world : World) (fleet : Fleet) (connected : List (String × Labels))
    (priorRender : Option Rendered) (wave : AssignedWave) (before final : Walk) : Prop where
  analysed : fleet.canary.enabled = true
  reached : ∃ idx done rest after,
    (fleet.wavePlan.assign connected).zipIdx = done ++ (wave, idx) :: rest ∧
    done.foldlM (canaryStep texts world fleet.canary fleet.applied.sourceCommit priorRender) (.new fleet) =
      some before ∧
    canaryStep texts world fleet.canary fleet.applied.sourceCommit priorRender before (wave, idx) = some after ∧
    before.rollback = none ∧ after.rollback.isSome
  finished : rollOutPlanCanary texts world fleet connected priorRender = some final

/-- The wave is undone: the commits of the waves and the committed version are what they were before it was
    pushed, and since then every node of it has been pushed the bytes that it was on. -/
structure Undone (wave : AssignedWave) (on : String → List UInt8) (before after : RolloutState) : Prop where
  waveCommit : ∀ name : String, after.fleet.waveCommit[name]? = before.fleet.waveCommit[name]?
  committedVersion : after.fleet.committedVersion = before.fleet.committedVersion
  repushed : ∀ nodeId ∈ wave.nodeIds,
    ∃ push ∈ after.pushes.drop (before.pushes.length + wave.nodeIds.length),
      push.delivered = true ∧ push.snapshot.nodeId = nodeId ∧ push.snapshot.config = on nodeId

/-- The wave can be undone: its commit is not spelled like a missing one, none of its nodes gets a version above
    the committed one, and there is a prior render, which is what every node of the wave was on and which reaches
    it. -/
structure Undoable (texts : RenderTexts) (world : World) (priorRender : Option Rendered) (wave : AssignedWave)
    (on : String → List UInt8) (before : RolloutState) : Prop where
  recorded : before.fleet.waveCommit[wave.name]? ≠ some neverCommitted
  versions : ∀ entry ∈ waveRenders texts world before wave.nodeIds,
    before.fleet.mintedVersion entry.1 entry.2.renderHash ≤ before.fleet.committedVersion
  prior : ∃ prior, priorRender = some prior ∧
    ∀ entry ∈ wave.nodeIds.zipIdx (before.pushes.length + wave.nodeIds.length),
      prior.configBytes = on entry.1 ∧ world.reachable entry.2 entry.1 = true

private theorem rollback_repushes_iff (world : World) (s : RolloutState) {nodeIds : List String}
    (distinct : nodeIds.Nodup) (waveName priorCommit : String) (priorRender : Option Rendered)
    (on : String → List UInt8) (nonempty : nodeIds ≠ []) :
    (∀ nodeId ∈ nodeIds, ∃ push ∈ (rollbackWave world s waveName nodeIds priorCommit priorRender).pushes.drop
        s.pushes.length,
      push.delivered = true ∧ push.snapshot.nodeId = nodeId ∧ push.snapshot.config = on nodeId) ↔
    ∃ prior, priorRender = some prior ∧ ∀ entry ∈ nodeIds.zipIdx s.pushes.length,
      prior.configBytes = on entry.1 ∧ world.reachable entry.2 entry.1 = true := by
  cases priorRender with
  | none =>
    obtain ⟨nodeId, inside⟩ := List.exists_mem_of_ne_nil _ nonempty
    simp only [reduceCtorEq, false_and, exists_false, iff_false, not_forall]
    exact ⟨nodeId, inside, by simp [rollbackWave]⟩
  | some prior =>
    obtain ⟨pushes, appended, contents⟩ := foldl_pushTo_pushes world prior
      { s with fleet := s.fleet.revertWaveCommit waveName priorCommit } nodeIds
    have dropped : (rollbackWave world s waveName nodeIds priorCommit (some prior)).pushes.drop s.pushes.length =
        pushes := by
      have all : (rollbackWave world s waveName nodeIds priorCommit (some prior)).pushes = s.pushes ++ pushes :=
        appended
      rw [all, List.drop_left]
    -- A push of the rollback is the turn of one node.
    have turn (nodeId : String) :
        (∃ push ∈ pushes, push.delivered = true ∧ push.snapshot.nodeId = nodeId ∧
          push.snapshot.config = on nodeId) ↔
        ∃ entry ∈ nodeIds.zipIdx s.pushes.length, entry.1 = nodeId ∧ prior.configBytes = on nodeId ∧
          world.reachable entry.2 nodeId = true := by
      have image : (∃ push ∈ pushes, push.delivered = true ∧ push.snapshot.nodeId = nodeId ∧
            push.snapshot.config = on nodeId) ↔
          ∃ content ∈ pushes.map (fun push => (push.snapshot.nodeId, push.snapshot.config, push.delivered)),
            content.2.2 = true ∧ content.1 = nodeId ∧ content.2.1 = on nodeId := by
        simp only [List.mem_map, exists_exists_and_eq_and]
      rw [image, contents]
      simp only [List.mem_map, exists_exists_and_eq_and]
      refine exists_congr fun entry => and_congr_right fun _ => ?_
      constructor
      · rintro ⟨reachable, rfl, bytes⟩
        exact ⟨rfl, bytes, reachable⟩
      · rintro ⟨rfl, bytes, reachable⟩
        exact ⟨reachable, rfl, bytes⟩
    simp only [dropped, turn, Option.some.injEq, exists_eq_left']
    constructor
    · rintro every ⟨nodeId, place⟩ inside
      obtain ⟨⟨other, otherPlace⟩, otherInside, same, bytes, reachable⟩ :=
        every nodeId (List.fst_mem_of_mem_zipIdx inside)
      dsimp only at same reachable ⊢
      subst same
      have samePlace : otherPlace = place := by
        rw [List.mem_zipIdx_iff_le_and_getElem?_sub] at inside otherInside
        have := (List.getElem?_inj (List.getElem?_eq_some_iff.mp inside.2).1 distinct).mp
          (inside.2.trans otherInside.2.symm)
        omega
      exact ⟨bytes, samePlace ▸ reachable⟩
    · intro every nodeId inside
      obtain ⟨place, bound, rfl⟩ := List.mem_iff_getElem.mp inside
      have listed : (nodeIds[place], s.pushes.length + place) ∈ nodeIds.zipIdx s.pushes.length := by
        rw [List.mem_zipIdx_iff_le_and_getElem?_sub]
        simp [bound]
      exact ⟨_, listed, rfl, every _ listed⟩

/-- A canary rollback undoes its wave exactly when no node of the wave got a version above the committed one, and
    the fleet-wide render of the apply before is what every node of the wave was on and reaches it again. -/
theorem rollback_undoes_iff {texts : RenderTexts} {world : World} {fleet : Fleet}
    {connected : List (String × Labels)} {priorRender : Option Rendered} {wave : AssignedWave} {before final : Walk}
    (distinct : (connected.map (·.1)).Nodup)
    (rollsBack : RollsBack texts world fleet connected priorRender wave before final) (on : String → List UInt8) :
    Undone wave on before.state final.state ↔ Undoable texts world priorRender wave on before.state := by
  obtain ⟨analysed, ⟨idx, done, rest, after, waves, reached, stepped, running, rolledBack⟩, finished⟩ := rollsBack
  obtain ⟨stopped, hash, nodeCount, committed, rolled⟩ := canaryStep_rolledBack running stepped rolledBack
  have assigned : wave ∈ fleet.wavePlan.assign connected :=
    List.fst_mem_of_mem_zipIdx (waves ▸ List.mem_append_right done List.mem_cons_self)
  have nodup := WavePlan.assign_nodup distinct assigned
  have ends : final.state = after.state := by
    simp only [rollOutPlanCanary, analysed, Bool.not_true, Bool.false_eq_true, if_false, waves,
      List.foldlM_append, List.foldlM_cons, reached, stepped, Option.bind_eq_bind, Option.bind_some] at finished
    exact foldlM_canaryStep_stopped stopped finished
  have nonempty : wave.nodeIds ≠ [] := by
    rintro none
    rw [none] at committed
    simp [runWaveNodes, Fleet.concludeWaveMulti] at committed
  obtain ⟨pushedRecord, pushedLength⟩ := runWaveNodes_frame texts world before.state wave.nodeIds
  have version := runWaveNodes_committedVersion texts world nodup committed
  rw [ends, rolled]
  generalize pushedState : (runWaveNodes texts world before.state wave.nodeIds).2 = pushed at *
  obtain ⟨record, unraised⟩ := rollbackWave_frame world pushed wave.name wave.nodeIds
    (pushed.fleet.frozenCommit wave.name) priorRender
  have commits := pushed.fleet.revertWaveCommit_frozenCommit wave.name
  rw [← record.waveCommit, pushedRecord.waveCommit] at commits
  have repushes := rollback_repushes_iff world pushed nodup wave.name
    (pushed.fleet.frozenCommit wave.name) priorRender on nonempty
  rw [pushedLength] at repushes
  constructor
  · rintro ⟨waveCommit, committedVersion, repushed⟩
    exact ⟨commits.mp waveCommit, version.mp (unraised ▸ committedVersion), repushes.mp repushed⟩
  · rintro ⟨recorded, versions, prior⟩
    exact ⟨commits.mpr recorded, unraised.trans (version.mpr versions), repushes.mpr prior⟩

/-! ### An upgrade of one node in each of two waves -/

namespace Upgrade

def namesAsConfig : RenderTexts := ⟨fun files _ => .ok (String.join (files.map (·.1))), id⟩

def region (name : String) : Labels := (∅ : Labels).insert "region" name

def euThenUs : WavePlan := ⟨[⟨"eu", ⟨[⟨"region", ["eu"]⟩]⟩⟩, ⟨"us", ⟨[⟨"region", ["us"]⟩]⟩⟩]⟩

def connected : List (String × Labels) := [("n1", region "eu"), ("n2", region "us")]

/-- Every node acknowledges what it is pushed; the analysis of one wave fails. -/
def failingAt (wave : Nat) : World where
  labels _ nodeId := some (region (if nodeId = "n1" then "eu" else "us"))
  reachable _ _ := true
  answer _ snapshot := .acked snapshot.renderHash
  analysis idx := if idx = wave then .fail "error rate" else .pass
  approved _ := false

def first : ResolvedRepo := ⟨[("v1", [])], "c1"⟩
def second : ResolvedRepo := ⟨[("v2", [])], "c2"⟩
def firstRender : Rendered := namesAsConfig.finalize first "v1"
def secondRender : Rendered := namesAsConfig.finalize second "v2"

/-- The fleet that was rolled out on the first commit, when the second is applied. -/
def upgrading : Fleet :=
  let rolledOut := rollOutPlan namesAsConfig (failingAt 2) (.fromSource firstRender first euThenUs) connected
  (rolledOut.state.fleet.setAppliedFromSource secondRender second euThenUs).2.setCanaryPolicy ⟨true, []⟩

def step (failing : Nat) (walk : Walk) (wave : AssignedWave × Nat) : Walk :=
  (canaryStep namesAsConfig (failingAt failing) upgrading.canary upgrading.applied.sourceCommit (some firstRender) walk
    wave).getD walk

def walked (failing : Nat) : Walk :=
  (rollOutPlanCanary namesAsConfig (failingAt failing) upgrading connected (some firstRender)).getD (.new upgrading)

def eu : AssignedWave := ⟨"eu", ["n1"]⟩
def us : AssignedWave := ⟨"us", ["n2"]⟩

theorem eq_some_getD {α : Type} {o : Option α} (present : o.isSome = true) (other : α) : o = some (o.getD other) := by
  obtain ⟨value, rfl⟩ := Option.isSome_iff_exists.mp present
  rfl

theorem second_wave_rolls_back :
    RollsBack namesAsConfig (failingAt 1) upgrading connected (some firstRender) us (step 1 (.new upgrading) (eu, 0))
      (walked 1) where
  analysed := by decide
  reached := by
    refine ⟨1, [(eu, 0)], [], step 1 (step 1 (.new upgrading) (eu, 0)) (us, 1), by decide, ?_,
      eq_some_getD (by decide) _, by decide, by decide⟩
    simp only [List.foldlM_cons, List.foldlM_nil, bind_pure]
    exact eq_some_getD (by decide) _
  finished := eq_some_getD (by decide) _

/-- The first wave has raised the committed version to what the second one gets, so the second one is undone. -/
theorem second_wave_undone :
    Undone us (fun _ => firstRender.configBytes) (step 1 (.new upgrading) (eu, 0)).state (walked 1).state :=
  (rollback_undoes_iff (by decide) second_wave_rolls_back _).mpr
    ⟨by decide, by decide, firstRender, rfl, by decide +kernel⟩

theorem first_wave_rolls_back :
    RollsBack namesAsConfig (failingAt 0) upgrading connected (some firstRender) eu (.new upgrading)
      (walked 0) where
  analysed := by decide
  reached :=
    ⟨0, [], [(us, 1)], step 0 (.new upgrading) (eu, 0), by decide, rfl,
      eq_some_getD (by decide) _, by decide, by decide⟩
  finished := eq_some_getD (by decide) _

/-- A rollback of the first wave leaves the fleet on the version of the render that failed, although every node was
    on the prior render and got it back. -/
theorem first_wave_not_undone :
    RollsBack namesAsConfig (failingAt 0) upgrading connected (some firstRender) eu (.new upgrading) (walked 0) ∧
      ¬ Undone eu (fun _ => firstRender.configBytes) (Walk.new upgrading).state (walked 0).state := by
  refine ⟨first_wave_rolls_back, fun undone => ?_⟩
  have restored := undone.committedVersion
  revert restored
  decide

end Upgrade

end SmallGateway
