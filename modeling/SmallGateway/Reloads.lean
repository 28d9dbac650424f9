import SmallGateway.Lib.History
import SmallGateway.Lib.Runs
import SmallGateway.Rollout

/-!
Reloads that overlap (`gatewayctl/src/{main,rollout,canary_rollout,fleet}.rs`: `reload_and_roll`, `roll_out_plan`,
`roll_out_plan_canary`, `run_wave_nodes`, `set_applied_from_source`). The two reload triggers run as tasks of their
own over one fleet. A reload applies its source and then walks the waves; the walk reads its target and its plan
once, but it computes the render of every push from what is applied when it comes to the push. Each access to the
fleet is a step of its own, and the steps of any number of reloads interleave.

The history keeps what was applied, pushed, answered and recorded. It is in order, in every state of a run, when no
walk comes to a push, or to its target, under a source that another reload has applied meanwhile
(`recorded_waves_in_order`).
-/

namespace SmallGateway

namespace Reloads

/-- What a run has done so far. A push of a wave names the reload and the place of the wave, the plan of the walk
    and its earlier waves that have nodes. -/
inductive Event
  | applied (commit : String) (plan : WavePlan)
  | pushed (reload place : Nat) (plan : WavePlan) (earlier : List String) (snapshot : RenderedSnapshot)
  | answered (reload place : Nat) (nodeId : String) (result : AckResult)
  | recorded (reload place : Nat) (waveName commit : String)
  | rolledBack (reload place : Nat) (snapshot : RenderedSnapshot)
  deriving DecidableEq

/-- One push of a wave: the node, the hash it was pushed and whether the push found a stream. -/
structure Sent where
  nodeId : String
  hash : String
  delivered : Bool

/-- A wave that is being pushed and answered. -/
structure WaveRun where
  remaining : List String
  pending : Option Rendered
  version : Nat
  sent : List Sent
  results : List (String × AckResult)

/-- Where a walk is with its wave: before it, pushing it, acknowledged, under analysis with its prior commit,
    cleared by the analysis, waiting at its gate, failed, or pushing the prior render. -/
inductive Stage
  | between
  | pushing (run : WaveRun)
  | acknowledged
  | analysing (prior : String)
  | cleared
  | gated
  | failed (prior : String)
  | reverting (remaining : List String)

structure Task where
  target : String
  plan : WavePlan
  canary : CanaryPolicy
  priorRender : Rendered
  assigned : List AssignedWave
  place : Nat
  stopped : Bool
  stage : Stage

/-- A reload: its source is resolved and the prior render captured, the canary policy is set, the source applied,
    the policy read, the plan read, then the waves are walked. -/
inductive Reload
  | resolved (next : Rendered) (source : ResolvedRepo) (plan : WavePlan) (canary : CanaryPolicy)
      (priorRender : Rendered)
  | policySet (next : Rendered) (source : ResolvedRepo) (plan : WavePlan) (priorRender : Rendered)
  | applied (priorRender : Rendered)
  | policyRead (canary : CanaryPolicy) (priorRender : Rendered)
  | planRead (canary : CanaryPolicy) (priorRender : Rendered) (plan : WavePlan)
  | walking (task : Task)
  | ended

/-- The next step of one reload, with what it meets: the labels and the stream of a node, an answer, a verdict. -/
inductive Move
  | setPolicy
  | apply
  | readPolicy
  | readPlan
  | start (connected : Std.TreeMap String Labels)
  | next
  | render (labels : Option Labels)
  | send (delivered : Bool)
  | answer (result : AckResult)
  | conclude
  | capture
  | verdict (analysis : Analysis)
  | record
  | approve
  | revert
  | repush (delivered : Bool)

/-- The walk goes on to the next wave. -/
def Task.advance (task : Task) : Task := { task with place := task.place + 1, stage := .between }

/-- The walk goes on behind a stop. -/
def Task.stop (task : Task) : Task := { task.advance with stopped := true }

def Task.wave (task : Task) : AssignedWave := task.assigned[task.place]?.getD ⟨"", []⟩

/-- The earlier waves of the walk that have nodes. -/
def Task.earlier (task : Task) : List String :=
  ((task.assigned.take task.place).filter fun wave => !wave.nodeIds.isEmpty).map (·.name)

/-- What a step leads to: the fleet, the reload and what is added to the history. -/
abbrev Turn := Fleet × Reload × Option Event

def pushingTurn (texts : RenderTexts) (fleet : Fleet) (i : Nat) (task : Task) (run : WaveRun) : Move → Option Turn
  | .render labels =>
    match run.remaining, run.pending with
    | _ :: _, none =>
      match labels with
      | some labels =>
        let (rendered, fleet) := fleet.desiredFor texts labels
        some (fleet, .walking { task with stage := .pushing { run with pending := some rendered } }, none)
      | none =>
        some (fleet, .walking { task with stage := .pushing { run with pending := some fleet.applied } }, none)
    | _, _ => none
  | .send delivered =>
    match run.remaining, run.pending with
    | nodeId :: remaining, some rendered =>
      let (version, fleet) := fleet.nextVersionFor nodeId rendered.renderHash
      let pushed : WaveRun := ⟨remaining, none, max run.version version,
        run.sent ++ [⟨nodeId, rendered.renderHash, delivered⟩], run.results⟩
      some (fleet, .walking { task with stage := .pushing pushed },
        some (.pushed i task.place task.plan task.earlier (rendered.toSnapshot nodeId version)))
    | _, _ => none
  | .answer result =>
    match run.remaining, run.sent[run.results.length]? with
    | [], some sent =>
      let result := if sent.delivered then result else .silent
      some (fleet,
        .walking { task with stage := .pushing { run with results := run.results ++ [(sent.nodeId, result)] } },
        some (.answered i task.place sent.nodeId result))
    | _, _ => none
  | .conclude =>
    if run.remaining.isEmpty && run.results.length == run.sent.length then
      let expected := run.sent.map fun sent => (sent.nodeId, sent.hash)
      let outcomeHash := (expected.head?.map (·.2)).getD ""
      match fleet.concludeWaveMulti outcomeHash expected run.version run.results with
      | (.committed _ _, fleet) => some (fleet, .walking { task with stage := .acknowledged }, none)
      | (.halted _ _, fleet) => some (fleet, .walking task.stop, none)
      | (.noNodes _, fleet) => some (fleet, .walking task.advance, none)
    else none
  | _ => none

/-- A walk records its wave on its target. -/
def recordTurn (fleet : Fleet) (i : Nat) (task : Task) (next : Task) : Option Turn :=
  some (fleet.setWaveCommit task.wave.name task.target, .walking next,
    some (.recorded i task.place task.wave.name task.target))

def taskTurn (texts : RenderTexts) (fleet : Fleet) (i : Nat) (task : Task) (move : Move) : Option Turn :=
  match task.stage, move with
  | .between, .next =>
    match task.assigned[task.place]? with
    | none => some (fleet, .ended, none)
    | some wave =>
      if task.stopped || wave.nodeIds.isEmpty then some (fleet, .walking task.advance, none)
      else
        some (fleet, .walking { task with stage := .pushing ⟨wave.nodeIds, none, fleet.committedVersion, [], []⟩ },
          none)
  | .pushing run, move => pushingTurn texts fleet i task run move
  | .acknowledged, .record => if task.canary.enabled then none else recordTurn fleet i task task.advance
  | .acknowledged, .capture =>
    if task.canary.enabled then
      some (fleet, .walking { task with stage := .analysing (fleet.frozenCommit task.wave.name) }, none)
    else none
  | .analysing prior, .verdict analysis =>
    match analysis with
    | .pass => some (fleet, .walking { task with stage := .cleared }, none)
    | .fail _ | .noData => some (fleet, .walking { task with stage := .failed prior }, none)
  | .cleared, .record =>
    recordTurn fleet i task
      (if task.canary.gatesAfter task.wave.name then { task with stage := .gated } else task.advance)
  | .gated, .approve => some (fleet, .walking task.advance, none)
  | .failed prior, .revert =>
    some (fleet.revertWaveCommit task.wave.name prior,
      .walking { task with stage := .reverting task.wave.nodeIds }, none)
  | .reverting (nodeId :: remaining), .repush _ =>
    let (version, fleet) := fleet.nextVersionFor nodeId task.priorRender.renderHash
    some (fleet, .walking { task with stage := .reverting remaining },
      some (.rolledBack i task.place (task.priorRender.toSnapshot nodeId version)))
  | .reverting [], .next => some (fleet, .walking task.stop, none)
  | _, _ => none

def turn (texts : RenderTexts) (fleet : Fleet) (i : Nat) : Reload → Move → Option Turn
  | .resolved next source plan canary priorRender, .setPolicy =>
    some (fleet.setCanaryPolicy canary, .policySet next source plan priorRender, none)
  | .policySet next source plan priorRender, .apply =>
    let (changed, fleet) := fleet.setAppliedFromSource next source plan
    some (fleet, if changed then .applied priorRender else .ended, some (.applied next.sourceCommit plan))
  | .applied priorRender, .readPolicy => some (fleet, .policyRead fleet.canary priorRender, none)
  | .policyRead canary priorRender, .readPlan => some (fleet, .planRead canary priorRender fleet.wavePlan, none)
  | .planRead canary priorRender plan, .start connected =>
    some (fleet,
      .walking
        ⟨fleet.applied.sourceCommit, plan, canary, priorRender, plan.assign connected.toList, 0, false, .between⟩,
      none)
  | .walking task, move => taskTurn texts fleet i task move
  | _, _ => none

end Reloads

structure Reloads where
  fleet : Fleet
  reloads : List Reloads.Reload
  history : List Reloads.Event

namespace Reloads

inductive Action
  /-- A trigger fires, and the source it resolves is admitted and renders. -/
  | load (source : ResolvedRepo) (plan : WavePlan) (canary : CanaryPolicy)
  | move (i : Nat) (move : Move)
  /-- Another task computes the desired render for some labels and mints a version for a node. -/
  | other (nodeId : String) (labels : Labels)

def step (texts : RenderTexts) (s : Reloads) : Action → Option Reloads
  | .load source plan canary =>
    match texts.renderResolved source with
    | .error _ => none
    | .ok next => some { s with reloads := s.reloads ++ [.resolved next source plan canary s.fleet.applied] }
  | .move i move =>
    match s.reloads[i]? with
    | none => none
    | some reload =>
      (turn texts s.fleet i reload move).map fun (fleet, next, event) =>
        ⟨fleet, s.reloads.set i next, s.history ++ event.toList⟩
  | .other nodeId labels =>
    let (rendered, fleet) := s.fleet.desiredFor texts labels
    some { s with fleet := (fleet.nextVersionFor nodeId rendered.renderHash).2 }

/-- The control plane after its start on a source. -/
def init (applied : Rendered) (source : ResolvedRepo) (plan : WavePlan) : Reloads :=
  ⟨.fromSource applied source plan, [], [.applied applied.sourceCommit plan]⟩

/-! ### What the history promises -/

/-- A wave that is recorded on a commit was pushed nothing but renders of it, and every push was acknowledged. A
    push comes after the earlier waves were recorded on its commit, and the plan of the walk was applied with it. -/
def Ordered (before : List Event) : Event → Prop
  | .recorded reload place _ commit => ∀ plan earlier snapshot,
      .pushed reload place plan earlier snapshot ∈ before → snapshot.sourceCommit = commit ∧
        .answered reload place snapshot.nodeId (.acked snapshot.renderHash) ∈ before
  | .pushed _ _ plan earlier snapshot => .applied snapshot.sourceCommit plan ∈ before ∧
      ∀ waveName ∈ earlier, ∃ reload place, .recorded reload place waveName snapshot.sourceCommit ∈ before
  | _ => True

/-- No other source is in force than the walk's own: when it computes a render, the target of the walk is applied,
    and when it reads its target, the plan it has read is. -/
def InForce (s : Reloads) : Action → Prop
  | .move i (.render _) =>
    match s.reloads[i]? with
    | some (.walking task) => s.fleet.applied.sourceCommit = task.target
    | _ => True
  | .move i (.start _) =>
    match s.reloads[i]? with
    | some (.planRead _ _ plan) => s.fleet.wavePlan = plan
    | _ => True
  | _ => True

instance (s : Reloads) (action : Action) : Decidable (s.InForce action) := by
  unfold InForce
  repeat' split
  all_goals infer_instance

/-! ### What a walk keeps -/

/-- What is desired is of one commit: the cached renders, the source, and the plan in the history. -/
structure Coherent (history : List Event) (fleet : Fleet) : Prop where
  cached : ∀ (key : String) (rendered : Rendered), fleet.renderCache[key]? = some rendered →
    rendered.sourceCommit = fleet.applied.sourceCommit
  desired : ∀ inputs, fleet.desired = some inputs → inputs.resolved.sourceCommit = fleet.applied.sourceCommit
  applied : .applied fleet.applied.sourceCommit fleet.wavePlan ∈ history

/-- The reload has pushed no wave from this place on. -/
def Unpushed (history : List Event) (i place : Nat) : Prop :=
  ∀ at_ plan earlier snapshot, .pushed i at_ plan earlier snapshot ∈ history → at_ < place

def Recorded (history : List Event) (waveName commit : String) : Prop :=
  ∃ reload place, .recorded reload place waveName commit ∈ history

/-- Every push of the wave is of the commit and was acknowledged. -/
def Acknowledged (history : List Event) (i place : Nat) (commit : String) : Prop :=
  ∀ plan earlier snapshot, .pushed i place plan earlier snapshot ∈ history → snapshot.sourceCommit = commit ∧
    .answered i place snapshot.nodeId (.acked snapshot.renderHash) ∈ history

structure WaveRun.Sound (history : List Event) (i : Nat) (task : Task) (run : WaveRun) : Prop where
  pending : ∀ rendered, run.pending = some rendered → rendered.sourceCommit = task.target
  pushed : ∀ plan earlier snapshot, .pushed i task.place plan earlier snapshot ∈ history →
    snapshot.sourceCommit = task.target ∧
      ∃ sent ∈ run.sent, sent.nodeId = snapshot.nodeId ∧ sent.hash = snapshot.renderHash
  nodes : run.sent.map (·.nodeId) ++ run.remaining = task.wave.nodeIds
  results : run.results.map (·.1) = (run.sent.take run.results.length).map (·.nodeId)
  answered : ∀ entry ∈ run.results, .answered i task.place entry.1 entry.2 ∈ history

/-- A wave with nodes is under way, and no later one was pushed. -/
structure Task.Active (history : List Event) (i : Nat) (task : Task) : Prop where
  here : task.assigned[task.place]? = some task.wave
  nodes : task.wave.nodeIds ≠ []
  running : task.stopped = false
  unpushed : Unpushed history i (task.place + 1)

def Stage.Sound (history : List Event) (i : Nat) (task : Task) : Stage → Prop
  | .between => Unpushed history i task.place
  | .pushing run => task.Active history i ∧ run.Sound history i task
  | .acknowledged | .analysing _ | .cleared =>
    task.Active history i ∧ Acknowledged history i task.place task.target
  | .gated => task.Active history i ∧ Recorded history task.wave.name task.target
  | .failed _ | .reverting _ => task.Active history i

structure Task.Sound (history : List Event) (i : Nat) (task : Task) : Prop where
  applied : .applied task.target task.plan ∈ history
  distinct : ∀ wave ∈ task.assigned, wave.nodeIds.Nodup
  earlier : task.stopped = false → ∀ waveName ∈ task.earlier, Recorded history waveName task.target
  stage : task.stage.Sound history i task

def Reload.Sound (history : List Event) (i : Nat) : Reload → Prop
  | .resolved next source _ _ _ | .policySet next source _ _ =>
    next.sourceCommit = source.sourceCommit ∧ Unpushed history i 0
  | .applied _ | .policyRead _ _ | .planRead _ _ _ => Unpushed history i 0
  | .walking task => task.Sound history i
  | .ended => True

/-- The history has grown, by no push of this reload. -/
structure Grown (history later : List Event) (i : Nat) : Prop where
  kept : ∀ event ∈ history, event ∈ later
  quiet : ∀ place plan earlier snapshot, .pushed i place plan earlier snapshot ∈ later →
    .pushed i place plan earlier snapshot ∈ history

section
variable {history later : List Event} {i : Nat}

theorem Unpushed.mono {place : Nat} (unpushed : Unpushed history i place) (grown : Grown history later i) :
    Unpushed later i place :=
  fun at_ plan earlier snapshot inside => unpushed at_ plan earlier snapshot (grown.quiet _ _ _ _ inside)

theorem Recorded.mono {waveName commit : String} (recorded : Recorded history waveName commit)
    (kept : ∀ event ∈ history, event ∈ later) : Recorded later waveName commit := by
  obtain ⟨reload, place, inside⟩ := recorded
  exact ⟨reload, place, kept _ inside⟩

theorem Acknowledged.mono {place : Nat} {commit : String} (acknowledged : Acknowledged history i place commit)
    (grown : Grown history later i) : Acknowledged later i place commit := by
  intro plan earlier snapshot inside
  obtain ⟨same, answered⟩ := acknowledged plan earlier snapshot (grown.quiet _ _ _ _ inside)
  exact ⟨same, grown.kept _ answered⟩

theorem Task.Active.mono {task : Task} (active : task.Active history i) (grown : Grown history later i) :
    task.Active later i :=
  ⟨active.here, active.nodes, active.running, active.unpushed.mono grown⟩

theorem WaveRun.Sound.mono {task : Task} {run : WaveRun} (sound : run.Sound history i task)
    (grown : Grown history later i) : run.Sound later i task where
  pending := sound.pending
  pushed := fun plan earlier snapshot inside => sound.pushed plan earlier snapshot (grown.quiet _ _ _ _ inside)
  nodes := sound.nodes
  results := sound.results
  answered := fun entry inside => grown.kept _ (sound.answered entry inside)

theorem Stage.Sound.mono {task : Task} {stage : Stage} (sound : stage.Sound history i task)
    (grown : Grown history later i) : stage.Sound later i task := by
  cases stage with
  | between => exact Unpushed.mono sound grown
  | pushing run => exact ⟨sound.1.mono grown, sound.2.mono grown⟩
  | acknowledged => exact ⟨sound.1.mono grown, sound.2.mono grown⟩
  | analysing prior => exact ⟨sound.1.mono grown, sound.2.mono grown⟩
  | cleared => exact ⟨sound.1.mono grown, sound.2.mono grown⟩
  | gated => exact ⟨sound.1.mono grown, sound.2.mono grown.kept⟩
  | failed prior => exact Task.Active.mono sound grown
  | reverting remaining => exact Task.Active.mono sound grown

theorem Task.Sound.mono {task : Task} (sound : task.Sound history i) (grown : Grown history later i) :
    task.Sound later i where
  applied := grown.kept _ sound.applied
  distinct := sound.distinct
  earlier := fun running waveName inside => (sound.earlier running waveName inside).mono grown.kept
  stage := sound.stage.mono grown

theorem Reload.Sound.mono {reload : Reload} (sound : reload.Sound history i) (grown : Grown history later i) :
    reload.Sound later i := by
  cases reload with
  | resolved next source plan canary priorRender => exact ⟨sound.1, sound.2.mono grown⟩
  | policySet next source plan priorRender => exact ⟨sound.1, sound.2.mono grown⟩
  | applied priorRender => exact Unpushed.mono sound grown
  | policyRead canary priorRender => exact Unpushed.mono sound grown
  | planRead canary priorRender plan => exact Unpushed.mono sound grown
  | walking task => exact Task.Sound.mono sound grown
  | ended => trivial

/-- What is kept of a wave does not depend on the stage that the walk is in. -/
theorem Stage.Sound.at_stage {task : Task} {entered : Stage} (sound : entered.Sound history i task) (stage : Stage) :
    entered.Sound history i { task with stage } := by
  have keep (active : task.Active history i) : ({ task with stage } : Task).Active history i :=
    ⟨active.here, active.nodes, active.running, active.unpushed⟩
  cases entered with
  | between => exact sound
  | pushing run =>
    obtain ⟨active, runs⟩ := sound
    exact ⟨keep active, runs.pending, runs.pushed, runs.nodes, runs.results, runs.answered⟩
  | acknowledged => exact ⟨keep sound.1, sound.2⟩
  | analysing prior => exact ⟨keep sound.1, sound.2⟩
  | cleared => exact ⟨keep sound.1, sound.2⟩
  | gated => exact ⟨keep sound.1, sound.2⟩
  | failed prior => exact keep sound
  | reverting remaining => exact keep sound

theorem Task.Sound.enter {task : Task} (sound : task.Sound history i) {stage : Stage}
    (entered : stage.Sound history i task) : ({ task with stage } : Task).Sound history i :=
  ⟨sound.applied, sound.distinct, sound.earlier, entered.at_stage stage⟩

theorem Grown.refl (history : List Event) (i : Nat) : Grown history history i :=
  ⟨fun _ inside => inside, fun _ _ _ _ inside => inside⟩

/-- Any event but a push of this reload. -/
theorem Grown.append {event : Event}
    (other : ∀ place plan earlier snapshot, event ≠ .pushed i place plan earlier snapshot) :
    Grown history (history ++ [event]) i where
  kept := fun _ inside => List.mem_append_left _ inside
  quiet := by
    intro place plan earlier snapshot inside
    rcases List.mem_append.mp inside with before | last
    · exact before
    · exact absurd (List.mem_singleton.mp last).symm (other place plan earlier snapshot)

end

theorem Coherent.mono {history later : List Event} {fleet : Fleet} (coherent : Coherent history fleet)
    (kept : ∀ event ∈ history, event ∈ later) : Coherent later fleet :=
  ⟨coherent.cached, coherent.desired, kept _ coherent.applied⟩

/-- What a fleet keeps of its waves and its nodes has no part in it. -/
theorem Coherent.of_sameDesired {history : List Event} {fleet other : Fleet} (coherent : Coherent history fleet)
    (cache : other.renderCache = fleet.renderCache) (applied : other.applied = fleet.applied)
    (desired : other.desired = fleet.desired) : Coherent history other := by
  have plan : other.wavePlan = fleet.wavePlan := by rw [Fleet.wavePlan, desired, Fleet.wavePlan]
  refine ⟨?_, ?_, ?_⟩
  · rw [cache, applied]
    exact coherent.cached
  · rw [desired, applied]
    exact coherent.desired
  · rw [applied, plan]
    exact coherent.applied

/-- A desired render is of the applied commit. -/
theorem Coherent.desiredFor {history : List Event} {fleet : Fleet} (coherent : Coherent history fleet)
    (texts : RenderTexts) (labels : Labels) :
    (fleet.desiredFor texts labels).1.sourceCommit = fleet.applied.sourceCommit ∧
      Coherent history (fleet.desiredFor texts labels).2 := by
  cases cached : fleet.renderCache[canonicalLabels labels]? with
  | some hit =>
    simp only [Fleet.desiredFor, cached]
    exact ⟨coherent.cached _ hit cached, coherent⟩
  | none =>
    have commit : (fleet.desiredFor texts labels).1.sourceCommit = fleet.applied.sourceCommit := by
      simp only [Fleet.desiredFor, cached]
      cases source : fleet.desired with
      | none => rfl
      | some inputs =>
        dsimp only
        cases renders : texts.renderResolvedForNode inputs.resolved labels with
        | error e => rfl
        | ok rendered => exact (renderResolvedForNode_commit renders).trans (coherent.desired inputs source)
    refine ⟨commit, ?_⟩
    have same := fleet.desiredFor_sameRecord texts labels
    have plan : (fleet.desiredFor texts labels).2.wavePlan = fleet.wavePlan := by
      rw [Fleet.wavePlan, same.desired, Fleet.wavePlan]
    refine ⟨?_, ?_, ?_⟩
    · intro key rendered found
      rw [same.applied]
      have cache : (fleet.desiredFor texts labels).2.renderCache =
          fleet.renderCache.insert (canonicalLabels labels) (fleet.desiredFor texts labels).1 := by
        simp only [Fleet.desiredFor, cached]
      rw [cache, Std.TreeMap.getElem?_insert] at found
      split at found
      · rw [Option.some.injEq] at found
        exact found ▸ commit
      · exact coherent.cached key rendered found
    · rw [same.desired, same.applied]
      exact coherent.desired
    · rw [same.applied, plan]
      exact coherent.applied

/-! ### One step -/

/-- A step keeps the fleet coherent and its reload sound, pushes for its reload only, and adds to the history what
    the history so far justifies. -/
structure Keeps (history : List Event) (i : Nat) (result : Turn) : Prop where
  fleet : Coherent (history ++ result.2.2.toList) result.1
  reload : result.2.1.Sound (history ++ result.2.2.toList) i
  own : ∀ reload place plan earlier snapshot,
    result.2.2 = some (.pushed reload place plan earlier snapshot) → reload = i
  ordered : ∀ event, result.2.2 = some event → Ordered history event

section
variable {texts : RenderTexts} {history : List Event} {i : Nat} {fleet : Fleet} {task : Task}

theorem Keeps.silent {reload : Reload} (coherent : Coherent history fleet) (sound : reload.Sound history i) :
    Keeps history i (fleet, reload, none) where
  fleet := by simpa using coherent
  reload := by simpa using sound
  own := by simp
  ordered := by simp

/-- A step that adds an event which is no push. -/
theorem Keeps.adds {reload : Reload} {event : Event} (coherent : Coherent (history ++ [event]) fleet)
    (sound : reload.Sound (history ++ [event]) i)
    (other : ∀ reload place plan earlier snapshot, event ≠ .pushed reload place plan earlier snapshot)
    (ordered : Ordered history event) : Keeps history i (fleet, reload, some event) where
  fleet := coherent
  reload := sound
  own := fun _ _ _ _ _ same => absurd (Option.some.inj same) (other _ _ _ _ _)
  ordered := fun _ same => Option.some.inj same ▸ ordered

theorem Task.Sound.stop (sound : task.Sound history i) (unpushed : Unpushed history i (task.place + 1)) :
    task.stop.Sound history i where
  applied := sound.applied
  distinct := sound.distinct
  earlier := by simp [Task.stop]
  stage := unpushed

/-- The walk passes its wave: it has no nodes, or is recorded, or the walk is stopped. -/
theorem Task.Sound.advance (sound : task.Sound history i) {wave : AssignedWave}
    (here : task.assigned[task.place]? = some wave)
    (passed : task.stopped = false → wave.nodeIds.isEmpty = false → Recorded history wave.name task.target)
    (unpushed : Unpushed history i (task.place + 1)) : task.advance.Sound history i where
  applied := sound.applied
  distinct := sound.distinct
  earlier := by
    intro running waveName inside
    simp only [Task.earlier, Task.advance, List.take_add_one, here, Option.toList_some, List.filter_append,
      List.map_append, List.mem_append] at inside
    rcases inside with before | last
    · exact sound.earlier running waveName before
    · obtain ⟨other, inside, rfl⟩ := List.mem_map.mp last
      obtain ⟨only, nonempty⟩ := List.mem_filter.mp inside
      obtain rfl := List.mem_singleton.mp only
      exact passed running (by simpa using nonempty)
  stage := unpushed

/-- The results are those of the pushes in order, so there are at most as many. -/
theorem WaveRun.Sound.results_le {run : WaveRun} (sound : run.Sound history i task) :
    run.results.length ≤ run.sent.length := by
  have lengths := congrArg List.length sound.results
  simp only [List.length_map, List.length_take] at lengths
  omega

/-- When a wave commits, every push of it was acknowledged. -/
theorem WaveRun.Sound.acknowledged {run : WaveRun} (sound : run.Sound history i task)
    (distinct : task.wave.nodeIds.Nodup) (complete : run.results.length = run.sent.length)
    {outcomeHash hash : String} {nodeCount : Nat}
    (committed : (fleet.concludeWaveMulti outcomeHash (run.sent.map fun sent => (sent.nodeId, sent.hash))
      run.version run.results).1 = .committed hash nodeCount) : Acknowledged history i task.place task.target := by
  intro plan earlier snapshot inside
  obtain ⟨commit, sent, sentInside, node, sentHash⟩ := sound.pushed plan earlier snapshot inside
  refine ⟨commit, ?_⟩
  have nodup : (run.sent.map (·.nodeId)).Nodup := by
    refine List.Nodup.sublist ?_ distinct
    rw [← sound.nodes]
    exact List.sublist_append_left _ _
  have answers : sent.nodeId ∈ run.results.map (·.1) := by
    rw [sound.results, complete, List.take_length]
    exact List.mem_map_of_mem sentInside
  obtain ⟨⟨nodeId, result⟩, entry, named⟩ := List.mem_map.mp answers
  dsimp only at named
  subst named
  -- The hash that is wanted of the node is the one it was pushed: no other push of the wave went to it.
  have only : ∀ entry ∈ run.sent.map fun sent => (sent.nodeId, sent.hash), entry.1 = sent.nodeId →
      entry.2 = sent.hash := by
    intro entry listed same
    obtain ⟨other, otherInside, rfl⟩ := List.mem_map.mp listed
    rw [List.inj_on_of_nodup_map nodup otherInside sentInside same]
  have acked := Fleet.concludeWaveMulti_acked_wanted committed entry (List.mem_map.mpr ⟨sent, sentInside, rfl⟩) only
  have answered := sound.answered (sent.nodeId, result) entry
  dsimp only at answered
  rw [acked, node, sentHash] at answered
  exact answered

/-- The push to the next node of the wave is of the target of the walk. -/
theorem send_keeps {run : WaveRun} {delivered : Bool} {result : Turn} (coherent : Coherent history fleet)
    (sound : task.Sound history i) (active : task.Active history i) (runs : run.Sound history i task)
    (moved : pushingTurn texts fleet i task run (.send delivered) = some result) : Keeps history i result := by
  simp only [pushingTurn] at moved
  split at moved
  · rename_i nodeId remaining rendered queue pending
    obtain rfl := Option.some.inj moved
    have commit := runs.pending rendered pending
    set snapshot := rendered.toSnapshot nodeId (fleet.mintedVersion nodeId rendered.renderHash) with snapshot_eq
    set event : Event := .pushed i task.place task.plan task.earlier snapshot with event_eq
    have kept : ∀ other ∈ history, other ∈ history ++ [event] := fun _ => List.mem_append_left _
    have split : ∀ place plan earlier other, Event.pushed i place plan earlier other ∈ history ++ [event] →
        Event.pushed i place plan earlier other ∈ history ∨ (place = task.place ∧ other = snapshot) := by
      intro place plan earlier other inside
      rcases List.mem_append.mp inside with before | last
      · exact .inl before
      · have same := List.mem_singleton.mp last
        rw [event_eq, Event.pushed.injEq] at same
        exact .inr ⟨same.2.1, same.2.2.2.2⟩
    have unpushed : Unpushed (history ++ [event]) i (task.place + 1) := by
      intro place plan earlier other inside
      rcases split place plan earlier other inside with before | ⟨rfl, -⟩
      · exact active.unpushed place plan earlier other before
      · omega
    have pushes : ∀ plan earlier other, Event.pushed i task.place plan earlier other ∈ history ++ [event] →
        other.sourceCommit = task.target ∧ ∃ sent ∈ run.sent ++ [⟨nodeId, rendered.renderHash, delivered⟩],
          sent.nodeId = other.nodeId ∧ sent.hash = other.renderHash := by
      intro plan earlier other inside
      rcases split _ _ _ _ inside with before | ⟨-, rfl⟩
      · obtain ⟨same, sent, sentInside, equal⟩ := runs.pushed plan earlier other before
        exact ⟨same, sent, List.mem_append_left _ sentInside, equal⟩
      · exact ⟨commit, _, List.mem_append_right _ (List.mem_singleton.mpr rfl), rfl, rfl⟩
    have minted : Coherent history (fleet.nextVersionFor nodeId rendered.renderHash).2 :=
      coherent.of_sameDesired rfl rfl rfl
    refine ⟨minted.mono kept, ?_, ?_, ?_⟩
    · have stage : Stage.Sound (history ++ [event]) i task (.pushing ⟨remaining, none,
          max run.version (fleet.nextVersionFor nodeId rendered.renderHash).1,
          run.sent ++ [⟨nodeId, rendered.renderHash, delivered⟩], run.results⟩) := by
        refine ⟨⟨active.here, active.nodes, active.running, unpushed⟩, by simp, pushes, ?_, ?_,
          fun entry inside => kept _ (runs.answered entry inside)⟩
        · rw [← runs.nodes, queue]
          simp
        · rw [runs.results, List.take_append_of_le_length runs.results_le]
      exact ⟨kept _ sound.applied, sound.distinct,
        fun running waveName inside => (sound.earlier running waveName inside).mono kept, stage.at_stage _⟩
    · intro reload place plan earlier other same
      exact (Event.pushed.inj (Option.some.inj same)).1.symm
    · intro other same
      obtain rfl := Option.some.inj same
      refine ⟨?_, ?_⟩
      · show Event.applied rendered.sourceCommit task.plan ∈ history
        rw [commit]
        exact sound.applied
      · intro waveName inside
        show Recorded history waveName rendered.sourceCommit
        rw [commit]
        exact sound.earlier active.running waveName inside
  · simp at moved

/-- A wave that commits is acknowledged; any other outcome stops the walk. -/
theorem conclude_keeps {run : WaveRun} {result : Turn} (coherent : Coherent history fleet)
    (sound : task.Sound history i) (active : task.Active history i) (runs : run.Sound history i task)
    (moved : pushingTurn texts fleet i task run .conclude = some result) : Keeps history i result := by
  simp only [pushingTurn] at moved
  split at moved
  · rename_i complete
    rw [Bool.and_eq_true, List.isEmpty_iff, beq_iff_eq] at complete
    have wave : task.wave ∈ task.assigned := List.mem_of_getElem? active.here
    have same := fleet.concludeWaveMulti_sameDesired
      (((run.sent.map fun sent => (sent.nodeId, sent.hash)).head?.map (·.2)).getD "")
      (run.sent.map fun sent => (sent.nodeId, sent.hash)) run.version run.results
    split at moved
    · rename_i hash nodeCount after outcome
      obtain rfl := Option.some.inj moved
      rw [outcome] at same
      have acknowledged := runs.acknowledged (sound.distinct _ wave) complete.2 (congrArg Prod.fst outcome)
      have stage : Stage.acknowledged.Sound history i task := ⟨active, acknowledged⟩
      exact .silent (coherent.of_sameDesired same.1 same.2.1 same.2.2) (sound.enter stage)
    · rename_i hash divergences after outcome
      obtain rfl := Option.some.inj moved
      rw [outcome] at same
      exact .silent (coherent.of_sameDesired same.1 same.2.1 same.2.2) (sound.stop active.unpushed)
    · rename_i hash after outcome
      -- A wave with nodes has results.
      have nodes := runs.nodes
      have none : run.results = [] := Fleet.concludeWaveMulti_noNodes (congrArg Prod.fst outcome)
      have unsent : run.sent = [] := by
        rw [none] at complete
        exact List.length_eq_zero_iff.mp complete.2.symm
      rw [unsent, complete.1] at nodes
      exact absurd nodes.symm active.nodes
  · simp at moved

theorem pushingTurn_keeps {run : WaveRun} {move : Move} {result : Turn} (coherent : Coherent history fleet)
    (sound : task.Sound history i) (active : task.Active history i) (runs : run.Sound history i task)
    (inForce : ∀ labels, move = .render labels → fleet.applied.sourceCommit = task.target)
    (moved : pushingTurn texts fleet i task run move = some result) : Keeps history i result := by
  cases move with
  | render labels =>
    have target := inForce labels rfl
    simp only [pushingTurn] at moved
    split at moved
    · split at moved
      · rename_i labels
        obtain rfl := Option.some.inj moved
        obtain ⟨commit, still⟩ := coherent.desiredFor texts labels
        have pending : ∀ rendered, some (fleet.desiredFor texts labels).1 = some rendered →
            rendered.sourceCommit = task.target := fun _ same => Option.some.inj same ▸ commit.trans target
        exact .silent still (sound.enter ⟨active, { runs with pending }⟩)
      · obtain rfl := Option.some.inj moved
        have pending : ∀ rendered, some fleet.applied = some rendered → rendered.sourceCommit = task.target :=
          fun _ same => Option.some.inj same ▸ target
        exact .silent coherent (sound.enter ⟨active, { runs with pending }⟩)
    · simp at moved
  | send delivered => exact send_keeps coherent sound active runs moved
  | answer result =>
    simp only [pushingTurn] at moved
    split at moved
    · rename_i sent queue next
      obtain rfl := Option.some.inj moved
      have grown : Grown history (history ++ [.answered i task.place sent.nodeId
          (if sent.delivered then result else .silent)]) i := .append (by simp)
      refine .adds ((coherent.of_sameDesired rfl rfl rfl).mono grown.kept) ?_ (by simp) trivial
      have runsStill := runs.mono grown
      refine (sound.mono grown).enter ⟨active.mono grown, runsStill.pending, runsStill.pushed, runsStill.nodes, ?_, ?_⟩
      · simp only [List.map_append, List.length_append, List.length_singleton, List.take_add_one, next,
          Option.toList_some, runs.results, List.map_cons, List.map_nil]
      · intro entry inside
        rcases List.mem_append.mp inside with before | last
        · exact runsStill.answered entry before
        · rw [List.mem_singleton.mp last]
          exact List.mem_append_right _ (List.mem_singleton.mpr rfl)
    · simp at moved
  | conclude => exact conclude_keeps coherent sound active runs moved
  | setPolicy => simp [pushingTurn] at moved
  | apply => simp [pushingTurn] at moved
  | readPolicy => simp [pushingTurn] at moved
  | readPlan => simp [pushingTurn] at moved
  | start connected => simp [pushingTurn] at moved
  | next => simp [pushingTurn] at moved
  | capture => simp [pushingTurn] at moved
  | verdict analysis => simp [pushingTurn] at moved
  | record => simp [pushingTurn] at moved
  | approve => simp [pushingTurn] at moved
  | revert => simp [pushingTurn] at moved
  | repush delivered => simp [pushingTurn] at moved

/-- A wave that is recorded was acknowledged, and the walk goes on to a stage in which that is all it keeps. -/
theorem recordTurn_keeps {next : Task} {result : Turn} (coherent : Coherent history fleet)
    (sound : task.Sound history i) (active : task.Active history i)
    (acknowledged : Acknowledged history i task.place task.target)
    (goesOn : next = task.advance ∨ next = { task with stage := .gated })
    (moved : recordTurn fleet i task next = some result) : Keeps history i result := by
  obtain rfl := Option.some.inj moved
  have grown : Grown history (history ++ [.recorded i task.place task.wave.name task.target]) i := .append (by simp)
  have recorded : Recorded (history ++ [.recorded i task.place task.wave.name task.target]) task.wave.name
      task.target := ⟨i, task.place, List.mem_append_right _ (List.mem_singleton.mpr rfl)⟩
  have unmoved : Coherent history (fleet.setWaveCommit task.wave.name task.target) :=
    coherent.of_sameDesired rfl rfl rfl
  refine .adds (unmoved.mono grown.kept) ?_ (by simp) fun plan earlier snapshot => acknowledged plan earlier snapshot
  rcases goesOn with rfl | rfl
  · exact (sound.mono grown).advance active.here (fun _ _ => recorded) (active.unpushed.mono grown)
  · have stage : Stage.gated.Sound (history ++ [.recorded i task.place task.wave.name task.target]) i task :=
      ⟨active.mono grown, recorded⟩
    exact (sound.mono grown).enter stage

/-- Between waves the walk ends, passes a wave without nodes or behind a stop, or starts to push. -/
theorem between_keeps {result : Turn} (coherent : Coherent history fleet) (sound : task.Sound history i)
    (between : task.stage = .between) (moved : taskTurn texts fleet i task .next = some result) :
    Keeps history i result := by
  have staged := sound.stage
  rw [between] at staged
  simp only [taskTurn, between] at moved
  cases here : task.assigned[task.place]? with
  | none =>
    simp only [here, Option.some.injEq] at moved
    subst moved
    exact .silent coherent trivial
  | some wave =>
    simp only [here] at moved
    have later : Unpushed history i (task.place + 1) := by
      intro place plan earlier snapshot inside
      have := staged place plan earlier snapshot inside
      omega
    by_cases passes : (task.stopped || wave.nodeIds.isEmpty) = true
    · rw [if_pos passes, Option.some.injEq] at moved
      subst moved
      rw [Bool.or_eq_true] at passes
      refine .silent coherent (sound.advance here (fun running nonempty => ?_) later)
      simp [running, nonempty] at passes
    · rw [if_neg passes, Option.some.injEq] at moved
      subst moved
      rw [Bool.or_eq_true, not_or, Bool.not_eq_true, List.isEmpty_iff] at passes
      have wave_eq : task.wave = wave := by simp [Task.wave, here]
      have active : task.Active history i := ⟨wave_eq ▸ here, wave_eq ▸ passes.2, passes.1, later⟩
      have runs : WaveRun.Sound history i task ⟨wave.nodeIds, none, fleet.committedVersion, [], []⟩ := by
        refine ⟨by simp, fun plan earlier snapshot inside => ?_, by simp [wave_eq], by simp, by simp⟩
        have := staged task.place plan earlier snapshot inside
        omega
      have stage : Stage.Sound history i task (.pushing ⟨wave.nodeIds, none, fleet.committedVersion, [], []⟩) :=
        ⟨active, runs⟩
      exact .silent coherent (sound.enter stage)

theorem taskTurn_keeps {move : Move} {result : Turn} (coherent : Coherent history fleet)
    (sound : task.Sound history i)
    (inForce : ∀ labels, move = .render labels → fleet.applied.sourceCommit = task.target)
    (moved : taskTurn texts fleet i task move = some result) : Keeps history i result := by
  have staged := sound.stage
  have turned := moved
  unfold taskTurn at moved
  split at moved
  · rename_i between
    exact between_keeps coherent sound between turned
  · rename_i run stage
    rw [stage] at staged
    exact pushingTurn_keeps coherent sound staged.1 staged.2 inForce moved
  · rename_i stage
    rw [stage] at staged
    split at moved
    · simp at moved
    · exact recordTurn_keeps coherent sound staged.1 staged.2 (.inl rfl) moved
  · rename_i stage
    rw [stage] at staged
    split at moved
    · obtain rfl := Option.some.inj moved
      have analysing : (Stage.analysing (fleet.frozenCommit task.wave.name)).Sound history i task := staged
      exact .silent coherent (sound.enter analysing)
    · simp at moved
  · rename_i prior analysis stage
    rw [stage] at staged
    split at moved
    · obtain rfl := Option.some.inj moved
      have cleared : Stage.cleared.Sound history i task := staged
      exact .silent coherent (sound.enter cleared)
    · obtain rfl := Option.some.inj moved
      have failed : (Stage.failed prior).Sound history i task := staged.1
      exact .silent coherent (sound.enter failed)
    · obtain rfl := Option.some.inj moved
      have failed : (Stage.failed prior).Sound history i task := staged.1
      exact .silent coherent (sound.enter failed)
  · rename_i stage
    rw [stage] at staged
    refine recordTurn_keeps coherent sound staged.1 staged.2 ?_ moved
    split
    · exact .inr rfl
    · exact .inl rfl
  · rename_i stage
    rw [stage] at staged
    obtain rfl := Option.some.inj moved
    exact .silent coherent (sound.advance staged.1.here (fun _ _ => staged.2) staged.1.unpushed)
  · rename_i prior stage
    rw [stage] at staged
    obtain rfl := Option.some.inj moved
    have reverting : (Stage.reverting task.wave.nodeIds).Sound history i task := staged
    exact .silent (coherent.of_sameDesired rfl rfl rfl) (sound.enter reverting)
  · rename_i nodeId remaining delivered stage
    rw [stage] at staged
    obtain rfl := Option.some.inj moved
    have active : task.Active history i := staged
    let snapshot := task.priorRender.toSnapshot nodeId (fleet.mintedVersion nodeId task.priorRender.renderHash)
    have grown : Grown history (history ++ [.rolledBack i task.place snapshot]) i := .append (by simp)
    have minted : Coherent history (fleet.nextVersionFor nodeId task.priorRender.renderHash).2 :=
      coherent.of_sameDesired rfl rfl rfl
    have reverting : (Stage.reverting remaining).Sound (history ++ [.rolledBack i task.place snapshot]) i task :=
      active.mono grown
    exact .adds (minted.mono grown.kept) ((sound.mono grown).enter reverting) (by simp) trivial
  · rename_i stage
    rw [stage] at staged
    obtain rfl := Option.some.inj moved
    have active : task.Active history i := staged
    exact .silent coherent (sound.stop active.unpushed)
  · simp at moved

theorem turn_keeps {reload : Reload} {move : Move} {result : Turn} (coherent : Coherent history fleet)
    (sound : reload.Sound history i)
    (rendersOwn : ∀ labels task, move = .render labels → reload = .walking task →
      fleet.applied.sourceCommit = task.target)
    (startsOwn : ∀ connected canary priorRender plan, move = .start connected →
      reload = .planRead canary priorRender plan → fleet.wavePlan = plan)
    (moved : turn texts fleet i reload move = some result) : Keeps history i result := by
  unfold turn at moved
  split at moved
  · obtain rfl := Option.some.inj moved
    exact .silent (coherent.of_sameDesired rfl rfl rfl) sound
  · -- The source is applied: what is desired is of its commit from now on.
    rename_i next source plan priorRender
    obtain rfl := Option.some.inj moved
    obtain ⟨commit, unpushed⟩ := sound
    have grown : Grown history (history ++ [.applied next.sourceCommit plan]) i := .append (by simp)
    refine .adds ⟨by simp, ?_, ?_⟩ ?_ (by simp) trivial
    · intro inputs same
      obtain rfl := Option.some.inj same
      exact commit.symm
    · exact List.mem_append_right _ (List.mem_singleton.mpr rfl)
    · split
      · exact Unpushed.mono unpushed grown
      · trivial
  · obtain rfl := Option.some.inj moved
    exact .silent coherent sound
  · obtain rfl := Option.some.inj moved
    exact .silent coherent sound
  · rename_i canary priorRender plan connected
    obtain rfl := Option.some.inj moved
    have own := startsOwn connected canary priorRender plan rfl rfl
    have ids : (connected.toList.map (·.1)).Nodup := by
      rw [Std.TreeMap.map_fst_toList_eq_keys]
      exact Std.TreeMap.nodup_keys
    refine .silent coherent ⟨own ▸ coherent.applied, fun wave assigned => WavePlan.assign_nodup ids assigned, ?_, sound⟩
    simp [Task.earlier]
  · rename_i task
    exact taskTurn_keeps coherent sound (fun labels same => rendersOwn labels task same rfl) moved
  · simp at moved

end

/-! ### Over a run -/

structure Invariant (s : Reloads) : Prop where
  fleet : Coherent s.history s.fleet
  reloads : ∀ (i : Nat) (reload : Reload), s.reloads[i]? = some reload → reload.Sound s.history i
  known : ∀ i place plan earlier snapshot, .pushed i place plan earlier snapshot ∈ s.history → i < s.reloads.length
  ordered : History.Justified Ordered s.history

theorem invariant_init {texts : RenderTexts} {applied : Rendered} {source : ResolvedRepo} (plan : WavePlan)
    (renders : texts.renderResolved source = .ok applied) : Invariant (init applied source plan) where
  fleet := by
    refine ⟨by simp [init, Fleet.fromSource], fun inputs same => ?_, List.mem_singleton.mpr rfl⟩
    obtain rfl := Option.some.inj same
    exact (renderResolved_commit renders).symm
  reloads := by simp [init]
  known := by simp [init]
  ordered := by
    have empty : History.Justified Ordered [] := History.justified_nil
    have first : Ordered [] (.applied applied.sourceCommit plan) := trivial
    exact History.justified_concat.mpr ⟨empty, first⟩

theorem invariant_preserved (texts : RenderTexts) : Runs.PreservesWhen (step texts) InForce Invariant := by
  intro s action next invariant inForce stepped
  cases action with
  | load source plan canary =>
    simp only [step] at stepped
    split at stepped
    · simp at stepped
    · rename_i rendered renders
      obtain rfl := Option.some.inj stepped
      refine ⟨invariant.fleet, ?_, ?_, invariant.ordered⟩
      · intro i reload found
        by_cases last : i < s.reloads.length
        · exact invariant.reloads i reload (by rwa [List.getElem?_append_left last] at found)
        · rw [List.getElem?_append_right (by omega), List.getElem?_singleton] at found
          split at found
          · obtain rfl := Option.some.inj found
            refine ⟨renderResolved_commit renders, fun place plan earlier snapshot inside => ?_⟩
            exact absurd (invariant.known i place plan earlier snapshot inside) last
          · simp at found
      · intro i place plan earlier snapshot inside
        have := invariant.known i place plan earlier snapshot inside
        rw [List.length_append]
        omega
  | other nodeId labels =>
    obtain rfl := Option.some.inj stepped
    obtain ⟨-, coherent⟩ := invariant.fleet.desiredFor texts labels
    exact ⟨coherent.of_sameDesired rfl rfl rfl, invariant.reloads, invariant.known, invariant.ordered⟩
  | move i move =>
    simp only [step] at stepped
    split at stepped
    · simp at stepped
    · rename_i reload found
      obtain ⟨⟨fleet, after, event⟩, moved, rfl⟩ := Option.map_eq_some_iff.mp stepped
      have rendersOwn : ∀ labels task, move = .render labels → reload = .walking task →
          s.fleet.applied.sourceCommit = task.target := by
        rintro labels task rfl rfl
        simpa only [InForce, found] using inForce
      have startsOwn : ∀ connected canary priorRender plan, move = .start connected →
          reload = .planRead canary priorRender plan → s.fleet.wavePlan = plan := by
        rintro connected canary priorRender plan rfl rfl
        simpa only [InForce, found] using inForce
      have keeps := turn_keeps invariant.fleet (invariant.reloads i reload found) rendersOwn startsOwn moved
      have bound := (List.getElem?_eq_some_iff.mp found).1
      have pushes : ∀ j place plan earlier snapshot,
          .pushed j place plan earlier snapshot ∈ s.history ++ event.toList →
          .pushed j place plan earlier snapshot ∈ s.history ∨ j = i := by
        intro j place plan earlier snapshot inside
        rcases List.mem_append.mp inside with before | added
        · exact .inl before
        · exact .inr (keeps.own j place plan earlier snapshot (by simpa using added))
      refine ⟨keeps.fleet, ?_, ?_, ?_⟩
      · intro j other present
        by_cases same : j = i
        · subst same
          rw [List.getElem?_set_self bound] at present
          exact Option.some.inj present ▸ keeps.reload
        · rw [List.getElem?_set_ne (Ne.symm same)] at present
          refine (invariant.reloads j other present).mono ⟨fun _ => List.mem_append_left _, ?_⟩
          intro place plan earlier snapshot inside
          exact (pushes j place plan earlier snapshot inside).resolve_right same
      · intro j place plan earlier snapshot inside
        rw [List.length_set]
        rcases pushes j place plan earlier snapshot inside with before | rfl
        · exact invariant.known j place plan earlier snapshot before
        · exact bound
      · cases event with
        | none => simpa using invariant.ordered
        | some event => exact History.justified_concat.mpr ⟨invariant.ordered, keeps.ordered event rfl⟩

/-- However any number of reloads interleave, when no walk computes a push, or reads its target, under a source that
    another reload has applied meanwhile, then in every state of the run each wave that was recorded on a commit was
    pushed renders of that commit only, each acknowledged by its node, and each push of a wave came after the earlier
    waves of that commit were recorded. -/
theorem recorded_waves_in_order {texts : RenderTexts} {applied : Rendered} {source : ResolvedRepo} {plan : WavePlan}
    {actions : List Action} {s : Reloads} (renders : texts.renderResolved source = .ok applied)
    (executed : Runs.exec (step texts) (init applied source plan) actions = some s)
    (inForce : Runs.Along (step texts) InForce (init applied source plan) actions) :
    History.Justified Ordered s.history :=
  (Runs.exec_preserves_along (invariant_preserved texts) (invariant_init plan renders) inForce executed).ordered

/-! ### A reload during a walk -/

def namesAsConfig : RenderTexts := ⟨fun files _ => .ok (String.join (files.map (·.1))), id⟩

def commit (id : String) : ResolvedRepo := ⟨[(id, [])], id⟩

def euThenUs : WavePlan := ⟨[⟨"eu", ⟨[⟨"region", ["eu"]⟩]⟩⟩, ⟨"us", ⟨[⟨"region", ["us"]⟩]⟩⟩]⟩

def region (name : String) : Labels := (∅ : Labels).insert "region" name

def nodes : Std.TreeMap String Labels :=
  ((∅ : Std.TreeMap String Labels).insert "n1" (region "eu")).insert "n2" (region "us")

/-- A reload resolves a commit and applies it. -/
def applies (i : Nat) (id : String) : List Action :=
  [.load (commit id) euThenUs ⟨false, []⟩, .move i .setPolicy, .move i .apply]

def starts (i : Nat) : List Action := [.move i .readPolicy, .move i .readPlan, .move i (.start nodes)]

/-- A wave of one node is pushed, acknowledged with a hash and recorded. -/
def walks (i : Nat) (labels : Labels) (hash : String) : List Action :=
  [.move i .next, .move i (.render (some labels)), .move i (.send true), .move i (.answer (.acked hash)),
    .move i .conclude, .move i .record]

def runFrom (actions : List Action) : Reloads :=
  (Runs.exec (step namesAsConfig) (init (namesAsConfig.finalize (commit "c0") "c0") (commit "c0") euThenUs)
    actions).getD (init (namesAsConfig.finalize (commit "c0") "c0") (commit "c0") euThenUs)

/-- The second reload applies its source when the first has pushed all of its waves. -/
def oneAfterTheOther : List Action :=
  applies 0 "c1" ++ starts 0 ++ walks 0 (region "eu") "c1" ++ walks 0 (region "us") "c1" ++ applies 1 "c2" ++
    starts 1 ++ [.move 0 .next] ++ walks 1 (region "eu") "c2"

theorem one_after_the_other_in_order : History.Justified Ordered (runFrom oneAfterTheOther).history :=
  recorded_waves_in_order rfl (Runs.exec_eq_getD _ _ oneAfterTheOther (by decide) _) (by decide)

/-- The second reload applies its source between the waves of the first. The first goes on, pushes the second wave
    the render of the second source, and records it on the first. -/
def between : List Action :=
  applies 0 "c1" ++ starts 0 ++ walks 0 (region "eu") "c1" ++ applies 1 "c2" ++ walks 0 (region "us") "c2"

theorem reload_during_walk_misrecorded :
    ¬ ∀ (texts : RenderTexts) (applied : Rendered) (source : ResolvedRepo) (plan : WavePlan) (actions : List Action)
      (s : Reloads), texts.renderResolved source = .ok applied →
      Runs.exec (step texts) (init applied source plan) actions = some s → History.Justified Ordered s.history := by
  intro claimed
  have ordered := claimed namesAsConfig _ (commit "c0") euThenUs between _ rfl
    (Runs.exec_eq_getD _ _ between (by decide) (runFrom []))
  have last : (runFrom between).history = (runFrom between).history.dropLast ++
      .recorded 0 1 "us" "c1" :: [] := by decide +kernel
  have pushed : .pushed 0 1 euThenUs ["eu"] ⟨"n2", "c2", "c2", 1, "c2".toUTF8.toList⟩ ∈
      (runFrom between).history.dropLast := by decide +kernel
  have same := (ordered _ _ _ last _ _ _ pushed).1
  revert same
  decide

end Reloads

end SmallGateway
