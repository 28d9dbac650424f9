import SmallGateway.ControlPlane
import SmallGateway.Lib.Maps
import SmallGateway.WaveWalk

/-!
What the reconciler does after a rollout that stopped (`gatewayctl/src/{fleet,reconcile,rollout}.rs`:
`node_pending_in_unapplied_wave`, `tick`, `roll_out_plan`). Once some wave of a plan with several waves is on the
target, the reconciler pushes the target to no node whose wave is not on it, whatever the nodes and their streams do
(`stopped_waves_not_healed`). A plan of one wave has nobody waiting, and its nodes are pushed the target that was
just refused (`single_wave_healed`).
-/

namespace SmallGateway

/-! ### Nobody waiting is pushed to -/

theorem Fleet.SameRecord.pending {fleet other : Fleet} (same : fleet.SameRecord other) (labels : Labels) :
    other.nodePendingInUnappliedWave labels = fleet.nodePendingInUnappliedWave labels := by
  unfold Fleet.nodePendingInUnappliedWave
  rw [same.desired, same.applied, same.waveCommit]

namespace ControlPlane

variable (texts : RenderTexts)

theorem desiredForNode_frame (cp : ControlPlane) (nodeId : String) :
    cp.fleet.SameRecord (cp.desiredForNode texts nodeId).2.fleet ∧
      (cp.desiredForNode texts nodeId).2.pushes = cp.pushes := by
  unfold desiredForNode
  cases cp.server.store.nodes[nodeId]? with
  | none => exact ⟨.refl _, rfl⟩
  | some node => exact ⟨cp.fleet.desiredFor_sameRecord texts node.labels, rfl⟩

/-- The reconciler turns to nobody who waits for a wave by the record of the fleet. -/
structure Spares (record : Fleet) (cp : ControlPlane) : Prop where
  same : record.SameRecord cp.fleet
  healing : ∀ now queue nodeId labels, cp.reconciler = .healing now queue nodeId labels →
    record.nodePendingInUnappliedWave labels = false
  healed : ∀ push ∈ cp.pushes, push.cause = .heal → record.nodePendingInUnappliedWave push.labels = false

/-- A step that leaves the reconciler alone, and pushes nothing or a bootstrap. -/
theorem Spares.keep {record : Fleet} {cp next : ControlPlane} (spares : Spares record cp)
    (same : cp.fleet.SameRecord next.fleet) (reconciler : next.reconciler = cp.reconciler)
    (pushes : ∀ push ∈ next.pushes, push ∈ cp.pushes ∨ push.cause = .bootstrap) : Spares record next where
  same := spares.same.trans same
  healing := by
    rw [reconciler]
    exact spares.healing
  healed := by
    intro push inside healed
    rcases pushes push inside with before | bootstrap
    · exact spares.healed push before healed
    · rw [bootstrap] at healed
      simp at healed

theorem Spares.inspect {record : Fleet} {cp : ControlPlane} (spares : Spares record cp) (now : Nat)
    (nodeId : String) (queue : List String) : Spares record (inspectNode texts cp now nodeId queue) := by
  unfold inspectNode
  cases cp.server.store.nodes[nodeId]? with
  | none => exact ⟨spares.same, by simp, spares.healed⟩
  | some node =>
    have same := spares.same.trans (cp.fleet.desiredFor_sameRecord texts node.labels)
    refine ⟨same, ?_, spares.healed⟩
    intro now' queue' nodeId' labels healing
    dsimp only at healing
    split at healing
    · rename_i heals
      obtain ⟨-, -, -, rfl⟩ := Reconciler.healing.inj healing
      rw [Bool.and_eq_true, Bool.not_eq_true'] at heals
      exact (same.pending node.labels).symm.trans heals.2
    · simp at healing

theorem spares_preserved (record : Fleet) : Runs.Preserves (step texts) (Spares record) := by
  intro cp action next spares stepped
  cases action with
  | session action =>
    simp only [step, Option.map_eq_some_iff] at stepped
    obtain ⟨server, -, rfl⟩ := stepped
    cases action <;> exact spares.keep (.refl _) rfl fun _ inside => .inl inside
  | breakGlass nodeId expiry =>
    obtain rfl := Option.some.inj stepped
    exact spares.keep (.refl _) rfl fun _ inside => .inl inside
  | render i =>
    simp only [step] at stepped
    split at stepped
    · simp at stepped
    · split at stepped
      · obtain rfl := Option.some.inj stepped
        exact spares.keep (cp.fleet.desiredFor_sameRecord texts _) rfl fun _ inside => .inl inside
      · simp at stepped
  | bootstrapPush i =>
    simp only [step] at stepped
    split at stepped
    · obtain rfl := Option.some.inj stepped
      refine spares.keep (Fleet.nextVersionFor_sameRecord _ _ _) rfl fun push inside => ?_
      rcases List.mem_append.mp inside with before | last
      · exact .inl before
      · exact .inr (congrArg NodePush.cause (List.mem_singleton.mp last))
    · simp at stepped
  | tick now =>
    simp only [step] at stepped
    split at stepped
    · obtain rfl := Option.some.inj stepped
      exact ⟨spares.same, by simp, spares.healed⟩
    · simp at stepped
  | inspect =>
    simp only [step] at stepped
    split at stepped
    · obtain rfl := Option.some.inj stepped
      exact ⟨spares.same, by simp, spares.healed⟩
    · obtain rfl := Option.some.inj stepped
      exact spares.inspect texts _ _ _
    · simp at stepped
  | heal =>
    simp only [step] at stepped
    split at stepped
    · rename_i now queue nodeId labels healing
      obtain rfl := Option.some.inj stepped
      have waits := spares.healing now queue nodeId labels healing
      obtain ⟨same, pushes⟩ := desiredForNode_frame texts cp nodeId
      refine ⟨(spares.same.trans same).trans (Fleet.nextVersionFor_sameRecord _ _ _), by simp, ?_⟩
      intro push inside healed
      rcases List.mem_append.mp inside with before | last
      · rw [pushes] at before
        exact spares.healed push before healed
      · rw [List.mem_singleton.mp last]
        exact waits
    · simp at stepped

end ControlPlane

/-! ### After a stop -/

/-- Where some wave is on the applied commit, a node that does not wait belongs to a wave that is on it too. -/
theorem Fleet.on_target_of_not_pending {fleet : Fleet} {labels : Labels} {on : String}
    (several : 2 ≤ fleet.wavePlan.waves.length) (reached : fleet.waveCommit[on]? = some fleet.applied.sourceCommit)
    (settled : fleet.nodePendingInUnappliedWave labels = false) :
    fleet.waveCommit[fleet.wavePlan.waveNameFor labels]? = some fleet.applied.sourceCommit := by
  have anyOnTarget : fleet.applied.sourceCommit ∈ fleet.waveCommit.values := Maps.mem_values reached
  cases source : fleet.desired with
  | none => simp [wavePlan, source, WavePlan.single] at several
  | some inputs =>
    have plan : fleet.wavePlan = inputs.plan := by simp [wavePlan, source]
    rw [plan] at several ⊢
    simp only [nodePendingInUnappliedWave, source] at settled
    rw [if_neg (by omega), if_neg (by simpa using anyOnTarget)] at settled
    simpa using settled

/-- The walk of a rollout, plain or analysed. -/
def RollsOut (texts : RenderTexts) (world : World) (fleet : Fleet) (connected : List (String × Labels))
    (priorRender : Option Rendered) (walk : Walk) : Prop :=
  walk = rollOutPlan texts world fleet connected ∨
    rollOutPlanCanary texts world fleet connected priorRender = some walk

theorem RollsOut.turns {texts : RenderTexts} {world : World} {fleet : Fleet} {connected : List (String × Labels)}
    {priorRender : Option Rendered} {walk : Walk} (rollsOut : RollsOut texts world fleet connected priorRender walk) :
    Turns fleet.applied.sourceCommit (.new fleet) (fleet.wavePlan.assign connected) walk.steps walk := by
  have plain : ∃ outcomes, Turns fleet.applied.sourceCommit (.new fleet) (fleet.wavePlan.assign connected) outcomes
      (rollOutPlan texts world fleet connected) := by
    obtain ⟨outcomes, walked⟩ : ∃ outcomes, Turns fleet.applied.sourceCommit (.new fleet)
        ((fleet.wavePlan.assign connected).zipIdx.map (·.1)) outcomes (rollOutPlan texts world fleet connected) :=
      foldl_planStep_turns _ _
    rw [List.zipIdx_map_fst] at walked
    exact ⟨outcomes, walked⟩
  have either : ∃ outcomes, Turns fleet.applied.sourceCommit (.new fleet) (fleet.wavePlan.assign connected) outcomes
      walk := by
    rcases rollsOut with rfl | analysed
    · exact plain
    · unfold rollOutPlanCanary at analysed
      split at analysed
      · exact Option.some.inj analysed ▸ plain
      · have walked := foldlM_canaryStep_turns analysed
        rwa [List.zipIdx_map_fst] at walked
  obtain ⟨outcomes, turns⟩ := either
  have steps : walk.steps = outcomes := turns.steps
  exact steps ▸ turns

/-- After a rollout over several waves stopped at a wave when an earlier one had advanced, the reconciler pushes the
    target to no node of that wave or a later one, except where the wave was on the target before. -/
theorem stopped_waves_not_healed {texts : RenderTexts} {world : World} {fleet : Fleet}
    {connected : List (String × Labels)} {priorRender : Option Rendered} {walk : Walk} {start final : ControlPlane}
    {actions : List ControlPlane.Action} {k : Nat} {stop : WaveStep} {prior : String} {divergences : List Divergence}
    (several : 2 ≤ fleet.wavePlan.waves.length) (distinct : fleet.wavePlan.names.Nodup)
    (rollsOut : RollsOut texts world fleet connected priorRender walk)
    (stops : walk.steps[k]? = some stop) (halted : stop.state = .halted prior divergences)
    (advances : ∃ step ∈ walk.steps, step.state = .advanced fleet.applied.sourceCommit)
    (after : walk.state.fleet.SameRecord start.fleet)
    (unhealing : ∀ now queue nodeId labels, start.reconciler ≠ .healing now queue nodeId labels)
    (unpushed : start.pushes = [])
    (executed : Runs.exec (ControlPlane.step texts) start actions = some final) :
    ∀ push ∈ final.pushes, push.cause = .heal → k ≤ fleet.wavePlan.waveIndexFor push.labels →
      fleet.waveCommit[fleet.wavePlan.waveNameFor push.labels]? = some fleet.applied.sourceCommit := by
  intro push inside healed late
  have turns := rollsOut.turns
  have named := fleet.wavePlan.assign_names connected
  have nodup : ((fleet.wavePlan.assign connected).map (·.name)).Nodup := distinct.sublist named.sublist
  -- The walk has left the desired state alone, and some wave on the target.
  obtain ⟨applied, desired⟩ := turns.record
  have plan : walk.state.fleet.wavePlan = fleet.wavePlan := by
    unfold Fleet.wavePlan
    rw [desired]
    rfl
  have applied : walk.state.fleet.applied = fleet.applied := applied
  obtain ⟨first, firstInside, advanced⟩ := advances
  have reached := turns.advanced_commit nodup firstInside advanced
  -- So the node that was pushed to belongs to a wave that is on the target at the end of the walk.
  have initial : ControlPlane.Spares walk.state.fleet start :=
    ⟨after, fun now queue nodeId labels healing => absurd healing (unhealing now queue nodeId labels),
      by simp [unpushed]⟩
  have spares := Runs.exec_preserves (ControlPlane.spares_preserved texts walk.state.fleet) initial executed
  have onTarget := Fleet.on_target_of_not_pending (plan ▸ several) (applied ▸ reached)
    (spares.healed push inside healed)
  rw [plan, applied] at onTarget
  rcases turns.commit_from onTarget with ⟨other, otherInside, otherNamed, otherAdvanced⟩ | before
  · -- A wave that advanced comes before the stop, and no later one has its name.
    obtain ⟨j, position⟩ := List.mem_iff_getElem?.mp otherInside
    have early := turns.advanced_lt_halted stops halted position otherAdvanced
    have atJ : (fleet.wavePlan.assign connected |>.map (·.name))[j]? = some other.waveName := by
      rw [← turns.names, List.getElem?_map, position, Option.map_some]
    have atPlace : fleet.wavePlan.names[j]? = some other.waveName := by
      obtain ⟨bound, value⟩ := List.getElem?_eq_some_iff.mp atJ
      rw [List.prefix_iff_getElem?.mp named j bound, value]
    have atIndex := fleet.wavePlan.waveNameFor_names push.labels
    rw [← otherNamed] at atIndex
    have same := (List.getElem?_inj (List.getElem?_eq_some_iff.mp atPlace).1 distinct).mp
      (atPlace.trans atIndex.symm)
    omega
  · exact before

/-! ### An upgrade that a node refuses -/

namespace Refused

def namesAsConfig : RenderTexts := ⟨fun files _ => .ok (String.join (files.map (·.1))), id⟩

def euLabels : Labels := (∅ : Labels).insert "region" "eu"
def usLabels : Labels := (∅ : Labels).insert "region" "us"

def euThenUs : WavePlan := ⟨[⟨"eu", ⟨[⟨"region", ["eu"]⟩]⟩⟩, ⟨"us", ⟨[⟨"region", ["us"]⟩]⟩⟩]⟩

def target : ResolvedRepo := ⟨[("v2", [])], "c2"⟩

def applied (plan : WavePlan) : Fleet := .fromSource (namesAsConfig.finalize target "v2") target plan

/-- The node n2 refuses what it is pushed. -/
def refusing : World where
  labels _ nodeId := some (if nodeId = "n1" then euLabels else usLabels)
  reachable _ _ := true
  answer _ snapshot := if snapshot.nodeId = "n2" then .nacked "refused" else .acked snapshot.renderHash
  analysis _ := .pass
  approved _ := true

def nodes : List (String × Labels) := [("n1", euLabels), ("n2", usLabels)]

def walk (plan : WavePlan) : Walk := rollOutPlan namesAsConfig refusing (applied plan) nodes

def start (plan : WavePlan) : ControlPlane := ⟨(walk plan).state.fleet, .new, [], .idle, 0, []⟩

/-- Both nodes come back and report the config of the commit before; then the reconciler ticks. -/
def comeBack : List ControlPlane.Action :=
  [.session (.connect "n1" euLabels), .session (.insert 0), .session (.receive 0 (.status "v1")),
    .session (.connect "n2" usLabels), .session (.insert 1), .session (.receive 1 (.status "v1")), .tick 0]

def final (plan : WavePlan) (ticks : List ControlPlane.Action) : ControlPlane :=
  (Runs.exec (ControlPlane.step namesAsConfig) (start plan) (comeBack ++ ticks)).getD (start plan)

def twoWaves : Fleet := applied euThenUs

def healedFirst : ControlPlane := final euThenUs [.inspect, .heal, .inspect, .inspect]

theorem only_first_wave_healed :
    healedFirst.pushes.map (·.snapshot.nodeId) = ["n1"] ∧
      ∀ push ∈ healedFirst.pushes, push.cause = .heal → 1 ≤ twoWaves.wavePlan.waveIndexFor push.labels →
        twoWaves.waveCommit[twoWaves.wavePlan.waveNameFor push.labels]? = some twoWaves.applied.sourceCommit := by
  refine ⟨by decide, ?_⟩
  have executed : Runs.exec (ControlPlane.step namesAsConfig) (start euThenUs)
      (comeBack ++ [.inspect, .heal, .inspect, .inspect]) = some healedFirst :=
    Runs.exec_eq_getD _ _ _ (by decide) (start euThenUs)
  have stops : (walk euThenUs).steps[1]? =
      some ⟨"us", 1, .halted neverCommitted [⟨"n2", .nacked 1 "refused"⟩]⟩ := by decide
  have rollsOut : RollsOut namesAsConfig refusing twoWaves nodes none (walk euThenUs) := .inl rfl
  exact stopped_waves_not_healed (by decide) (by decide) rollsOut stops rfl (by decide)
    (.refl _) (fun _ _ _ _ => Reconciler.noConfusion) rfl executed

/-- Where the nodes are rolled out in one wave, the node that refused is pushed the target again. -/
theorem single_wave_healed :
    ¬ ∀ (texts : RenderTexts) (world : World) (fleet : Fleet) (connected : List (String × Labels))
      (priorRender : Option Rendered) (walk : Walk) (start final : ControlPlane) (actions : List ControlPlane.Action)
      (k : Nat) (stop : WaveStep) (prior : String) (divergences : List Divergence),
      RollsOut texts world fleet connected priorRender walk → walk.steps[k]? = some stop →
      stop.state = .halted prior divergences → walk.state.fleet.SameRecord start.fleet →
      (∀ now queue nodeId labels, start.reconciler ≠ .healing now queue nodeId labels) → start.pushes = [] →
      Runs.exec (ControlPlane.step texts) start actions = some final →
      ∀ push ∈ final.pushes, fleet.wavePlan.waveIndexFor push.labels < k := by
  intro claimed
  have executed := Runs.exec_eq_getD (ControlPlane.step namesAsConfig) (start .single)
    (comeBack ++ [.inspect, .heal, .inspect, .heal]) (by decide) (start .single)
  have early := claimed namesAsConfig refusing (applied .single) nodes none (walk .single) (start .single) _ _ 0
    ⟨"all", 2, .halted neverCommitted [⟨"n2", .nacked 1 "refused"⟩]⟩ _ _ (.inl rfl) (by decide) rfl (.refl _)
    (by simp [start]) rfl executed
  have places : ((final .single [.inspect, .heal, .inspect, .heal]).pushes.map fun push =>
      WavePlan.single.waveIndexFor push.labels) = [0, 0] := by decide
  have zero : 0 ∈ (final .single [.inspect, .heal, .inspect, .heal]).pushes.map fun push =>
      WavePlan.single.waveIndexFor push.labels := by
    rw [places]
    exact List.mem_cons_self
  obtain ⟨push, inside, place⟩ := List.mem_map.mp zero
  have before := early push inside
  exact Nat.not_lt_zero _ before

end Refused

end SmallGateway
