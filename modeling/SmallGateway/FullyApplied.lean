import SmallGateway.Containment
import SmallGateway.WalkShape

/-!
What a rollout that is fully applied leaves for the reconciler
(`gatewayctl/src/{rollout,canary_rollout,fleet,reconcile}.rs`).
A wave without nodes is not put on the target, and once another wave is, a node that joins with labels of the empty wave
counts as waiting for it: the reconciler leaves its drift alone. The main result says for which labels nobody waits
(`nobody_waits_iff`).
-/

namespace SmallGateway

/-- No wave has halted and none was rolled back. -/
def Walk.isFullyApplied (walk : Walk) : Bool := walk.haltedAt.isNone && walk.rollback.isNone

theorem Walk.isFullyApplied_iff {walk : Walk} : walk.isFullyApplied = true ↔ walk.stopped = false := by
  simp [isFullyApplied, stopped]

/-- Some wave of the name has nodes. -/
def Peopled (waves : List AssignedWave) (name : String) : Prop := ∃ wave ∈ waves, wave.name = name ∧ wave.nodeIds ≠ []

theorem peopled_append {waves : List AssignedWave} {wave : AssignedWave} {name : String} :
    Peopled (waves ++ [wave]) name ↔ Peopled waves name ∨ (wave.name = name ∧ wave.nodeIds ≠ []) := by
  simp only [Peopled, List.mem_append, List.mem_singleton, or_and_right, exists_or, exists_eq_left]

/-- While a walk goes on, the waves so far that have nodes are on the target, and the others where they were. -/
structure PutOn (target : String) (start : Fleet) (done : List AssignedWave) (walk : Walk) : Prop where
  reached : walk.stopped = false → ∀ name, Peopled done name → walk.state.fleet.waveCommit[name]? = some target
  others : walk.stopped = false → ∀ name, ¬ Peopled done name →
    walk.state.fleet.waveCommit[name]? = start.waveCommit[name]?

section
variable {texts : RenderTexts} {world : World} {policy : CanaryPolicy} {target : String}
  {priorRender : Option Rendered}

theorem PutOn.advance {start : Fleet} {done : List AssignedWave} {walk : Walk} (putOn : PutOn target start done walk)
    {wave : AssignedWave} (attempted : walk.Attempts wave) {s : RolloutState}
    (same : walk.state.fleet.SameRecord s.fleet) (nodeCount : Nat) (gatesReleased : List String) :
    PutOn target start (done ++ [wave]) (walk.advance s wave nodeCount target gatesReleased) := by
  have commit (name : String) : (walk.advance s wave nodeCount target gatesReleased).state.fleet.waveCommit[name]? =
      if wave.name = name then some target else walk.state.fleet.waveCommit[name]? := by
    rw [← same.waveCommit]
    simp [Walk.advance, Fleet.setWaveCommit, Std.TreeMap.getElem?_insert]
  constructor
  · intro _ name peopled
    rw [commit]
    split
    · rfl
    · rename_i other
      rcases peopled_append.mp peopled with before | ⟨own, -⟩
      · exact putOn.reached attempted.1 name before
      · exact absurd own other
  · intro _ name unpeopled
    rw [peopled_append, not_or, not_and] at unpeopled
    rw [commit, if_neg fun own => unpeopled.2 own attempted.2]
    exact putOn.others attempted.1 name unpeopled.1

theorem Taken.putOn {start : Fleet} {done : List AssignedWave} {walk next : Walk} {wave : AssignedWave} {idx : Nat}
    (taken : Taken texts world policy target priorRender walk wave idx next) (putOn : PutOn target start done walk) :
    PutOn target start (done ++ [wave]) next := by
  have same := (runWaveNodes_frame texts world walk.state wave.nodeIds).1
  have halts (stopped : next.stopped = true) : PutOn target start (done ++ [wave]) next :=
    ⟨by simp [stopped], by simp [stopped]⟩
  cases taken with
  | frozen stopped => exact halts stopped
  | empty running none =>
    have peopled (name : String) : Peopled (done ++ [wave]) name ↔ Peopled done name := by
      rw [peopled_append, none]
      simp
    exact ⟨fun _ name inside => putOn.reached running name ((peopled name).mp inside),
      fun _ name outside => putOn.others running name (mt (peopled name).mpr outside)⟩
  | halted attempted hash divergences s ran => exact halts rfl
  | rolledBack attempted hash nodeCount s ran failed analysis breach =>
    exact halts (by simp [Walk.stopped, Walk.rolledBack])
  | advanced attempted hash nodeCount s ran passed ungated =>
    rw [ran] at same
    exact putOn.advance attempted same _ _
  | released attempted hash nodeCount s ran passed gated approved =>
    rw [ran] at same
    exact putOn.advance attempted same _ _

end

section
variable {texts : RenderTexts} {world : World} {fleet : Fleet} {connected : List (String × Labels)}
  {priorRender : Option Rendered} {walk : Walk}

/-- A walk agrees with one that analyses its waves, in the same world or in a cleared one. -/
theorem RollsOut.analysed (rollsOut : RollsOut texts world fleet connected priorRender walk) :
    ∃ world priorRender analysed, (fleet.wavePlan.assign connected).zipIdx.foldlM
        (canaryStep texts world fleet.canary fleet.applied.sourceCommit priorRender) (.new fleet) = some analysed ∧
      analysed.Agrees walk := by
  have plain := rollOutPlan_analysed texts world fleet connected
  rcases rollsOut with rfl | analysed
  · exact ⟨_, _, plain⟩
  unfold rollOutPlanCanary at analysed
  split at analysed
  · exact ⟨_, _, Option.some.inj analysed ▸ plain⟩
  · exact ⟨world, priorRender, walk, analysed, rfl, rfl, rfl, rfl⟩

theorem RollsOut.putOn (rollsOut : RollsOut texts world fleet connected priorRender walk) :
    PutOn fleet.applied.sourceCommit fleet (fleet.wavePlan.assign connected) walk := by
  obtain ⟨world, priorRender, analysed, walked, agrees⟩ := rollsOut.analysed
  have initial : PutOn fleet.applied.sourceCommit fleet [] (.new fleet) :=
    ⟨fun _ name ⟨wave, inside, _⟩ => (List.not_mem_nil inside).elim, fun _ _ _ => rfl⟩
  have put : PutOn fleet.applied.sourceCommit fleet (fleet.wavePlan.assign connected) analysed :=
    foldlM_canaryStep_keeps (fun _ _ _ _ taken putOn => taken.putOn putOn) initial walked
  have stopped : analysed.stopped = walk.stopped := by
    rw [Walk.stopped, Walk.stopped, agrees.haltedAt, agrees.rollback]
  refine ⟨?_, ?_⟩
  · rw [← stopped, ← agrees.state]
    exact put.reached
  · rw [← stopped, ← agrees.state]
    exact put.others

/-- The labels belong to a wave that had nodes or was on the target before; or there is only one wave, or none on the
    target at all. -/
def WaveSettled (fleet : Fleet) (waves : List AssignedWave) (labels : Labels) : Prop :=
  fleet.wavePlan.waves.length ≤ 1 ∨ Peopled waves (fleet.wavePlan.waveNameFor labels) ∨
    fleet.waveCommit[fleet.wavePlan.waveNameFor labels]? = some fleet.applied.sourceCommit ∨
    (∀ wave ∈ waves, wave.nodeIds = []) ∧ fleet.applied.sourceCommit ∉ fleet.waveCommit.values

theorem PutOn.commit_iff {target : String} {waves : List AssignedWave} (putOn : PutOn target fleet waves walk)
    (running : walk.stopped = false) (name : String) :
    walk.state.fleet.waveCommit[name]? = some target ↔ Peopled waves name ∨ fleet.waveCommit[name]? = some target := by
  by_cases peopled : Peopled waves name
  · exact iff_of_true (putOn.reached running name peopled) (.inl peopled)
  · rw [putOn.others running name peopled]
    exact ⟨.inr, fun either => either.resolve_left peopled⟩

/-- The target is on none of the waves after the walk when it was on none before, and no wave had nodes. -/
theorem PutOn.absent_iff {target : String} {waves : List AssignedWave} (putOn : PutOn target fleet waves walk)
    (running : walk.stopped = false) :
    target ∉ walk.state.fleet.waveCommit.values ↔
      (∀ wave ∈ waves, wave.nodeIds = []) ∧ target ∉ fleet.waveCommit.values := by
  simp only [Maps.mem_values_iff, putOn.commit_iff running, not_exists, not_or, forall_and]
  refine and_congr_left fun _ => ⟨fun unpeopled wave inside => ?_, ?_⟩
  · by_contra nodes
    exact unpeopled wave.name ⟨wave, inside, rfl, nodes⟩
  · rintro empty name ⟨wave, inside, -, nodes⟩
    exact nodes (empty wave inside)

/-- The node differs from its desired render in a way that a push heals. -/
def ControlPlane.Drifts (texts : RenderTexts) (cp : ControlPlane) (now : Nat) (nodeId : String) (node : NodeState) :
    Prop :=
  let (desired, fleet) := cp.fleet.desiredFor texts node.labels
  (classify (withDelivered node (fleet.deliveredHash nodeId)) desired.renderHash now).healsByRepush = true

/-- After a rollout that is fully applied, a node with the labels waits for no wave exactly when its wave is settled. -/
theorem RollsOut.unpending_iff (rollsOut : RollsOut texts world fleet connected priorRender walk)
    (fullyApplied : walk.isFullyApplied = true) (labels : Labels) :
    walk.state.fleet.nodePendingInUnappliedWave labels = false ↔
      WaveSettled fleet (fleet.wavePlan.assign connected) labels := by
  have running := Walk.isFullyApplied_iff.mp fullyApplied
  have putOn := rollsOut.putOn
  obtain ⟨applied, desired⟩ := rollsOut.turns.record
  unfold Fleet.nodePendingInUnappliedWave WaveSettled
  rw [applied, desired]
  simp only [Walk.new]
  have own := putOn.commit_iff running (fleet.wavePlan.waveNameFor labels)
  have absent := putOn.absent_iff running
  cases source : fleet.desired with
  | none =>
    have single : fleet.wavePlan.waves.length ≤ 1 := by simp [Fleet.wavePlan, source, WavePlan.single]
    exact iff_of_true rfl (.inl single)
  | some inputs =>
    have plan : fleet.wavePlan = inputs.plan := by simp [Fleet.wavePlan, source]
    rw [plan] at own absent ⊢
    dsimp only
    split
    case isTrue single => exact iff_of_true rfl (.inl single)
    case isFalse several =>
    rw [or_iff_right several, ← absent, ← or_assoc, ← own]
    by_cases onTarget : fleet.applied.sourceCommit ∈ walk.state.fleet.waveCommit.values
    · simp [onTarget]
    · simp [onTarget]

/-- Over every plan and fleet, after a rollout that is fully applied: for which labels no node counts as waiting for its
    wave, whether it was connected or joins later; and so for which nodes the reconciler, between rollouts, turns to a
    node whose drift a push would heal. -/
theorem nobody_waits_iff (rollsOut : RollsOut texts world fleet connected priorRender walk)
    (fullyApplied : walk.isFullyApplied = true) :
    (∀ labels, walk.state.fleet.nodePendingInUnappliedWave labels = false ↔
        WaveSettled fleet (fleet.wavePlan.assign connected) labels) ∧
      ∀ (cp : ControlPlane) (now : Nat) (nodeId : String) (queue : List String) (node : NodeState),
        cp.fleet = walk.state.fleet → cp.wavesInFlight = 0 → cp.server.store.nodes[nodeId]? = some node →
        cp.Drifts texts now nodeId node →
          ((cp.inspectNode texts now nodeId queue).reconciler = .healing now queue nodeId node.labels ↔
            WaveSettled fleet (fleet.wavePlan.assign connected) node.labels) := by
  refine ⟨rollsOut.unpending_iff fullyApplied, ?_⟩
  intro cp now nodeId queue node between grounded known drifts
  rw [← rollsOut.unpending_iff fullyApplied, ← between,
    ← (cp.fleet.desiredFor_sameRecord texts node.labels).pending node.labels]
  unfold ControlPlane.Drifts at drifts
  unfold ControlPlane.inspectNode
  simp only [known, drifts, grounded]
  cases (cp.fleet.desiredFor texts node.labels).2.nodePendingInUnappliedWave node.labels with
  | true => simp
  | false => simp

end

namespace Upgrade

/-- The first rollout, with a node in each wave. -/
theorem both_waves_settled :
    (rollOutPlan namesAsConfig (failingAt 2) (.fromSource firstRender first euThenUs)
      connected).state.fleet.nodePendingInUnappliedWave (region "us") = false :=
  ((nobody_waits_iff (.inl rfl : RollsOut namesAsConfig (failingAt 2) (.fromSource firstRender first euThenUs)
    connected none _) (by decide)).1 (region "us")).mpr
    (.inr (.inl ⟨us, by decide, by decide, by decide⟩))

/-- The first rollout without a node in the second wave is fully applied, and a node that then joins with labels of
    that wave waits for it. -/
theorem late_joiner_waits :
    ¬ ∀ (texts : RenderTexts) (world : World) (fleet : Fleet) (connected : List (String × Labels))
      (priorRender : Option Rendered) (walk : Walk), RollsOut texts world fleet connected priorRender walk →
        walk.isFullyApplied = true → ∀ labels, walk.state.fleet.nodePendingInUnappliedWave labels = false := by
  intro claimed
  have settled := claimed namesAsConfig (failingAt 2) (.fromSource firstRender first euThenUs) [("n1", region "eu")]
    none _ (.inl rfl) (by decide) (region "us")
  revert settled
  decide

end Upgrade

end SmallGateway
