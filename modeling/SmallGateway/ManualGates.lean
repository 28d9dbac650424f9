import SmallGateway.FullyApplied

/-!
The manual gates of an analysed walk (`roll_out_plan_canary` and `await_gate` in `gatewayctl/src/canary_rollout.rs`). A
gate stands behind the wave that it names and holds the walk until an approval for it is seen. The walk comes to it on
one branch only, when its wave has acknowledged and passed: a gated wave without nodes is passed by, and its gate with
it. So the gates hold in every run exactly when every gated wave before the last wave with nodes has nodes itself
(`gates_held_iff`).
-/

namespace SmallGateway

/-- No wave is pushed before the gate behind every earlier wave that is named has been seen to be approved. A walk that
    waits for an approval for good has come to the waves before it. -/
def GatesHeld (texts : RenderTexts) (world : World) (fleet : Fleet) (connected : List (String × Labels))
    (priorRender : Option Rendered) : Prop :=
  ∀ done wave rest before, fleet.wavePlan.assign connected = done ++ wave :: rest →
    done.zipIdx.foldlM (canaryStep texts world fleet.canary fleet.applied.sourceCommit priorRender) (.new fleet) =
      some before → before.Attempts wave →
    ∀ earlier ∈ done, fleet.canary.gatesAfter earlier.name = true →
      earlier.name ∈ before.gatesReleased ∧ world.approved earlier.name = true

/-- Ahead of every wave with nodes, each gate has a wave with nodes that it stands behind. -/
def GatesPeopled (fleet : Fleet) (connected : List (String × Labels)) : Prop :=
  ∀ done wave rest, fleet.wavePlan.assign connected = done ++ wave :: rest → wave.nodeIds ≠ [] →
    ∀ earlier ∈ done, fleet.canary.gatesAfter earlier.name = true → Peopled done earlier.name

/-- While a walk goes on, it has seen the approvals of the gates behind its waves with nodes, and of no others. -/
structure Released (world : World) (policy : CanaryPolicy) (done : List AssignedWave) (walk : Walk) : Prop where
  seen : walk.stopped = false → ∀ name, name ∈ walk.gatesReleased ↔ Peopled done name ∧ policy.gatesAfter name = true
  approved : ∀ name ∈ walk.gatesReleased, world.approved name = true

section
variable {texts : RenderTexts} {world : World} {policy : CanaryPolicy} {target : String}
  {priorRender : Option Rendered}

theorem Taken.keepsReleased {done : List AssignedWave} {walk next : Walk} {wave : AssignedWave} {idx : Nat}
    (taken : Taken texts world policy target priorRender walk wave idx next)
    (released : Released world policy done walk) : Released world policy (done ++ [wave]) next := by
  cases taken with
  | frozen stopped => exact ⟨fun running => absurd (stopped.symm.trans running) (by simp), released.approved⟩
  | empty running none =>
    refine ⟨fun _ name => ?_, released.approved⟩
    have unpeopled : ¬ (wave.name = name ∧ wave.nodeIds ≠ []) := fun peopled => peopled.2 none
    rw [peopled_append, or_iff_left unpeopled]
    exact released.seen running name
  | halted attempted hash divergences s ran => exact ⟨fun running => (Bool.noConfusion running), released.approved⟩
  | rolledBack attempted hash nodeCount s ran failed analysis breach =>
    exact ⟨fun running => by simp [Walk.stopped, Walk.rolledBack] at running, released.approved⟩
  | advanced attempted hash nodeCount s ran passed ungated =>
    refine ⟨fun _ name => ?_, released.approved⟩
    rw [peopled_append, or_and_right, ← released.seen attempted.1]
    refine (or_iff_left ?_).symm
    rintro ⟨⟨rfl, -⟩, gated⟩
    cases ungated.symm.trans gated
  | released attempted hash nodeCount s ran passed gated approved =>
    refine ⟨fun _ name => ?_, ?_⟩
    · rw [peopled_append, or_and_right, ← released.seen attempted.1, Walk.advance, List.mem_append, List.mem_singleton]
      refine or_congr_right ⟨?_, fun peopled => peopled.1.1.symm⟩
      rintro rfl
      exact ⟨⟨rfl, attempted.2⟩, gated⟩
    · exact forall_mem_append_singleton released.approved approved

theorem walk_released {start : Fleet} {waves : List AssignedWave} {final : Walk}
    (walked : waves.zipIdx.foldlM (canaryStep texts world policy target priorRender) (.new start) = some final) :
    Released world policy waves final := by
  have initial : Released world policy [] (.new start) :=
    ⟨fun _ name => iff_of_false (List.not_mem_nil) (by simp [Peopled]), fun name inside => nomatch inside⟩
  exact foldlM_canaryStep_keeps (fun _ _ _ _ taken released => taken.keepsReleased released) initial walked

end

/-! ### A world without a stop -/

/-- A wave commits when every answer is an acknowledgement of what was wanted. -/
theorem Fleet.concludeWaveMulti_clean {fleet : Fleet} {outcomeHash : String} {expected : List (String × String)}
    {version : Nat} {results : List (String × AckResult)} (answered : results ≠ [])
    (clean : ∀ entry ∈ results, entry.2 =
      .acked (((expected.find? fun want => want.1 == entry.1).map (·.2)).getD outcomeHash)) :
    (fleet.concludeWaveMulti outcomeHash expected version results).1 = .committed outcomeHash results.length := by
  unfold concludeWaveMulti
  rw [if_neg (by simpa using answered)]
  dsimp only
  rw [List.filterMap_eq_nil_iff.mpr]
  · rfl
  rintro ⟨nodeId, result⟩ inside
  have acked := clean (nodeId, result) inside
  dsimp only at acked ⊢
  rw [acked]
  exact if_pos rfl

/-- Every node acknowledges the applied render, every analysis passes and every gate is approved. -/
def agreeing : World where
  labels _ _ := none
  reachable _ _ := true
  answer _ snapshot := .acked snapshot.renderHash
  analysis _ := .pass
  approved _ := true

theorem foldl_pushDesired_agreeing (texts : RenderTexts) (wave : WavePushes) (nodeIds : List String) :
    let pushed := nodeIds.foldl (pushDesired texts agreeing) wave
    let hash := wave.state.fleet.applied.renderHash
    pushed.expected = wave.expected ++ nodeIds.map (·, hash) ∧
      pushed.results = wave.results ++ nodeIds.map (·, .acked hash) := by
  induction nodeIds generalizing wave with
  | nil => simp
  | cons nodeId nodeIds ih =>
    obtain ⟨expected, results⟩ := ih (pushDesired texts agreeing wave nodeId)
    refine ⟨expected.trans ?_, results.trans ?_⟩
    · exact List.append_assoc _ _ _
    · exact List.append_assoc _ _ _

theorem agreeing_acknowledges (texts : RenderTexts) {walk : Walk} {wave : AssignedWave}
    (attempted : walk.Attempts wave) : Acknowledges texts agreeing walk wave := by
  let hash := walk.state.fleet.applied.renderHash
  let pushed := wave.nodeIds.foldl (pushDesired texts agreeing)
    ⟨walk.state, walk.state.fleet.committedVersion, [], []⟩
  obtain ⟨expected, results⟩ : pushed.expected = [] ++ wave.nodeIds.map (·, hash) ∧
      pushed.results = [] ++ wave.nodeIds.map (·, .acked hash) := foldl_pushDesired_agreeing texts _ _
  rw [List.nil_append] at expected results
  refine ⟨_, _, Fleet.concludeWaveMulti_clean ?_ ?_⟩
  · rw [results]
    exact fun none => attempted.2 (List.map_eq_nil_iff.mp none)
  · rw [expected, results]
    intro entry answered
    obtain ⟨nodeId, inside, rfl⟩ := List.mem_map.mp answered
    have listed : (nodeId, hash) ∈ wave.nodeIds.map (·, hash) := List.mem_map_of_mem inside
    have only : ∀ entry ∈ wave.nodeIds.map (·, hash), entry.1 = nodeId → entry.2 = hash := by
      intro entry found _
      obtain ⟨other, -, rfl⟩ := List.mem_map.mp found
      rfl
    exact congrArg AckResult.acked (Fleet.wanted listed only _).symm

/-- In such a world no wave stops the walk. -/
theorem canaryStep_agreeing (texts : RenderTexts) (policy : CanaryPolicy) (target : String)
    (priorRender : Option Rendered) {walk : Walk} (running : walk.stopped = false) (entry : AssignedWave × Nat) :
    ∃ next, canaryStep texts agreeing policy target priorRender walk entry = some next ∧ next.stopped = false := by
  obtain ⟨wave, idx⟩ := entry
  by_cases none : wave.nodeIds = []
  · refine ⟨walk.pass wave .empty 0, ?_, running⟩
    simp [canaryStep, running, none]
  obtain ⟨hash, nodeCount, committed⟩ := agreeing_acknowledges texts ⟨running, none⟩
  rcases ran : runWaveNodes texts agreeing walk.state wave.nodeIds with ⟨outcome, s⟩
  rw [ran] at committed
  subst committed
  have passes : agreeing.analysis idx = .pass := rfl
  have approves : agreeing.approved wave.name = true := rfl
  cases gated : policy.gatesAfter wave.name with
  | false =>
    refine ⟨walk.advance s wave nodeCount target walk.gatesReleased, ?_, running⟩
    simp [canaryStep, running, none, ran, gated, passes, Walk.advance]
  | true =>
    refine ⟨walk.advance s wave nodeCount target (walk.gatesReleased ++ [wave.name]), ?_, running⟩
    simp [canaryStep, running, none, ran, gated, passes, approves, Walk.advance]

theorem foldlM_canaryStep_agreeing (texts : RenderTexts) (policy : CanaryPolicy) (target : String)
    (priorRender : Option Rendered) {walk : Walk} (running : walk.stopped = false)
    (entries : List (AssignedWave × Nat)) :
    ∃ final, entries.foldlM (canaryStep texts agreeing policy target priorRender) walk = some final ∧
      final.stopped = false := by
  induction entries generalizing walk with
  | nil => exact ⟨walk, rfl, running⟩
  | cons entry entries ih =>
    obtain ⟨next, stepped, still⟩ := canaryStep_agreeing texts policy target priorRender running entry
    obtain ⟨final, walked, unstopped⟩ := ih still
    refine ⟨final, ?_, unstopped⟩
    rw [List.foldlM_cons, stepped]
    exact walked

/-- Over every analysed plan, every list of gates and every distribution of the nodes over the waves: in every run of
    the walk no node of a wave is pushed before the gates behind all earlier waves were seen to be approved, if and only
    if every gated wave before a wave with nodes has nodes itself. -/
theorem gates_held_iff (texts : RenderTexts) (fleet : Fleet) (connected : List (String × Labels)) :
    (∀ world priorRender, GatesHeld texts world fleet connected priorRender) ↔ GatesPeopled fleet connected := by
  constructor
  · intro held done wave rest assigned nodes earlier inside gated
    obtain ⟨before, walked, running⟩ := foldlM_canaryStep_agreeing texts fleet.canary fleet.applied.sourceCommit none
      (rfl : (Walk.new fleet).stopped = false) done.zipIdx
    obtain ⟨seen, -⟩ := held agreeing none done wave rest before assigned walked ⟨running, nodes⟩ earlier inside gated
    exact (((walk_released walked).seen running earlier.name).mp seen).1
  · intro peopled world priorRender done wave rest before assigned walked attempted earlier inside gated
    have released := walk_released walked
    have seen := (released.seen attempted.1 earlier.name).mpr
      ⟨peopled done wave rest assigned attempted.2 earlier inside gated, gated⟩
    exact ⟨seen, released.approved _ seen⟩

namespace Upgrade

/-- A gate behind the first wave, which has no nodes: the second wave is pushed although nobody ever approves. -/
theorem empty_wave_ungated :
    ¬ ∀ (texts : RenderTexts) (world : World) (fleet : Fleet) (connected : List (String × Labels))
      (priorRender : Option Rendered), fleet.canary.enabled = true →
        GatesHeld texts world fleet connected priorRender := by
  intro claimed
  let gated : Fleet := (Fleet.fromSource firstRender first euThenUs).setCanaryPolicy ⟨true, ["eu"]⟩
  have held := claimed namesAsConfig (failingAt 2) gated [("n2", region "us")] none rfl [⟨"eu", []⟩] us []
    ((Walk.new gated).pass ⟨"eu", []⟩ .empty 0) (by decide) rfl ⟨rfl, by decide⟩ ⟨"eu", []⟩
    List.mem_cons_self rfl
  exact absurd held.1 (by decide)

end Upgrade

end SmallGateway
