import SmallGateway.Lib.Runs
import SmallGateway.Rollback

/-!
The two walks over the waves compared (`gatewayctl/src/{rollout,canary_rollout}.rs`), and what each of them returns. The
analysed walk does what the plain one does as long as every analysis passes and every gate is approved
(`rollOutPlanCanary_cleared`). What a walk returns has one step for each wave, nothing but frozen waves behind the one
that halted, and the index of that one; a wave that is rolled back is recorded as halted but without its index, so an
analysed walk returns this exactly when every wave that acknowledged passes its analysis (`wellShaped_iff`).
-/

namespace SmallGateway

/-- The wave acknowledges whole when it is pushed now. -/
def Acknowledges (texts : RenderTexts) (world : World) (walk : Walk) (wave : AssignedWave) : Prop :=
  ∃ hash nodeCount, (runWaveNodes texts world walk.state wave.nodeIds).1 = .committed hash nodeCount

/-- A wave that is pushed and acknowledges passes its analysis. -/
def PassesAnalysis (texts : RenderTexts) (world : World) (walk : Walk) (entry : AssignedWave × Nat) : Prop :=
  walk.Attempts entry.1 → Acknowledges texts world walk entry.1 → world.analysis entry.2 = .pass

section
variable {texts : RenderTexts} {world : World} {policy : CanaryPolicy} {target : String}
  {priorRender : Option Rendered}

/-- What one more wave keeps of a walk over its first waves holds of the walk over all of them. -/
theorem foldlM_canaryStep_keeps {inv : List AssignedWave → Walk → Prop}
    (kept : ∀ done walk wave next, Taken texts world policy target priorRender walk wave done.length next →
      inv done walk → inv (done ++ [wave]) next) {waves done : List AssignedWave} {walk final : Walk}
    (initial : inv done walk)
    (walked : (waves.zipIdx done.length).foldlM (canaryStep texts world policy target priorRender) walk = some final) :
    inv (done ++ waves) final := by
  induction waves generalizing done walk with
  | nil =>
    obtain rfl := Option.some.inj walked
    rwa [List.append_nil]
  | cons wave waves ih =>
    rw [List.zipIdx_cons, List.foldlM_cons, Option.bind_eq_bind, Option.bind_eq_some_iff] at walked
    obtain ⟨next, stepped, later⟩ := walked
    have all := ih (kept done walk wave next (canaryStep_taken stepped) initial) (by rwa [List.length_append])
    rwa [List.append_assoc] at all

/-! ### The analysed walk and the plain one -/

/-- The world with the same nodes, in which analyses pass and gates are approved. -/
def World.cleared (world : World) : World :=
  { world with analysis := fun _ => .pass, approved := fun _ => true }

/-- The same waves with the same outcome, and the same fleet and pushes. -/
structure Walk.Agrees (analysed plain : Walk) : Prop where
  state : analysed.state = plain.state
  steps : analysed.steps = plain.steps
  haltedAt : analysed.haltedAt = plain.haltedAt
  rollback : analysed.rollback = plain.rollback

theorem Walk.Agrees.pass {analysed plain : Walk} (agrees : analysed.Agrees plain) (wave : AssignedWave)
    (state : WaveStepState) (nodeCount : Nat) :
    (analysed.pass wave state nodeCount).Agrees (plain.pass wave state nodeCount) :=
  ⟨agrees.state, congrArg (· ++ [_]) agrees.steps, agrees.haltedAt, agrees.rollback⟩

/-- Where analyses pass and gates are approved, the two walks agree on a wave that they come to in agreement. -/
theorem canaryStep_cleared (passes : ∀ idx, world.analysis idx = .pass) (approves : ∀ name, world.approved name = true)
    {analysed plain : Walk} (agrees : analysed.Agrees plain) (entry : AssignedWave × Nat) :
    ∃ next, canaryStep texts world policy target priorRender analysed entry = some next ∧
      next.Agrees (planStep texts world target plain entry) := by
  obtain ⟨wave, idx⟩ := entry
  have stopped : analysed.stopped = plain.stopped := by
    rw [Walk.stopped, Walk.stopped, agrees.haltedAt, agrees.rollback]
  simp only [canaryStep, planStep, stopped, agrees.state, passes, approves, if_true]
  by_cases behind : plain.stopped = true
  · simp only [behind, if_true]
    exact ⟨_, rfl, agrees.pass _ _ _⟩
  simp only [behind]
  by_cases none : wave.nodeIds.isEmpty = true
  · simp only [none, if_true]
    exact ⟨_, rfl, agrees.pass _ _ _⟩
  simp only [none]
  rcases ran : runWaveNodes texts world plain.state wave.nodeIds with ⟨outcome, s⟩
  cases outcome with
  | halted hash divergences => exact ⟨_, rfl, ⟨rfl, congrArg (· ++ [_]) agrees.steps, rfl, agrees.rollback⟩⟩
  | noNodes hash => exact ⟨_, rfl, ⟨rfl, congrArg (· ++ [_]) agrees.steps, agrees.haltedAt, agrees.rollback⟩⟩
  | committed hash nodeCount =>
    cases policy.gatesAfter wave.name with
    | false => exact ⟨_, rfl, ⟨rfl, congrArg (· ++ [_]) agrees.steps, agrees.haltedAt, agrees.rollback⟩⟩
    | true => exact ⟨_, rfl, ⟨rfl, congrArg (· ++ [_]) agrees.steps, agrees.haltedAt, agrees.rollback⟩⟩

theorem foldlM_canaryStep_cleared (passes : ∀ idx, world.analysis idx = .pass)
    (approves : ∀ name, world.approved name = true) {analysed plain : Walk} (agrees : analysed.Agrees plain)
    (entries : List (AssignedWave × Nat)) :
    ∃ final, entries.foldlM (canaryStep texts world policy target priorRender) analysed = some final ∧
      final.Agrees (entries.foldl (planStep texts world target) plain) := by
  induction entries generalizing analysed plain with
  | nil => exact ⟨analysed, rfl, agrees⟩
  | cons entry entries ih =>
    obtain ⟨next, stepped, together⟩ :=
      @canaryStep_cleared texts world policy target priorRender passes approves _ _ agrees entry
    obtain ⟨final, walked, agreed⟩ := ih together
    refine ⟨final, ?_, agreed⟩
    rw [List.foldlM_cons, stepped]
    exact walked

end

/-- The plain walk asks for neither an analysis nor an approval, so it is the analysed one in a cleared world. -/
theorem rollOutPlan_analysed (texts : RenderTexts) (world : World) (fleet : Fleet)
    (connected : List (String × Labels)) :
    ∃ walk, (fleet.wavePlan.assign connected).zipIdx.foldlM
        (canaryStep texts world.cleared fleet.canary fleet.applied.sourceCommit none) (.new fleet) = some walk ∧
      walk.Agrees (rollOutPlan texts world fleet connected) :=
  foldlM_canaryStep_cleared (fun _ => rfl) (fun _ => rfl) ⟨rfl, rfl, rfl, rfl⟩ _

theorem planStep_rollback (texts : RenderTexts) (world : World) (target : String) (walk : Walk)
    (entry : AssignedWave × Nat) : (planStep texts world target walk entry).rollback = walk.rollback := by
  obtain ⟨wave, idx⟩ := entry
  simp only [planStep]
  split
  · rfl
  · split
    · rfl
    · split <;> rfl

/-- The plain walk rolls nothing back. -/
theorem rollOutPlan_rollback (texts : RenderTexts) (world : World) (fleet : Fleet)
    (connected : List (String × Labels)) : (rollOutPlan texts world fleet connected).rollback = none := by
  unfold rollOutPlan
  generalize (fleet.wavePlan.assign connected).zipIdx = entries
  have kept (walk : Walk) : (entries.foldl (planStep texts world fleet.applied.sourceCommit) walk).rollback =
      walk.rollback := by
    induction entries generalizing walk with
    | nil => rfl
    | cons entry entries ih => rw [List.foldl_cons, ih, planStep_rollback]
  rw [kept]
  rfl

/-- The analysed walk, with every analysis passing and every gate approved, returns what the plain walk returns: the
    same step for each wave, the same pushes in the same order, and the same fleet, with the commits of its waves and
    its committed version. -/
theorem rollOutPlanCanary_cleared (texts : RenderTexts) (world : World) (fleet : Fleet)
    (connected : List (String × Labels)) (priorRender : Option Rendered) (enabled : fleet.canary.enabled = true)
    (passes : ∀ idx, world.analysis idx = .pass) (approves : ∀ name, world.approved name = true) :
    ∃ walk, rollOutPlanCanary texts world fleet connected priorRender = some walk ∧
      walk.steps = (rollOutPlan texts world fleet connected).steps ∧
      walk.state.pushes = (rollOutPlan texts world fleet connected).state.pushes ∧
      walk.state.fleet = (rollOutPlan texts world fleet connected).state.fleet ∧
      walk.haltedAt = (rollOutPlan texts world fleet connected).haltedAt ∧ walk.rollback = none := by
  have initial : (Walk.new fleet).Agrees (.new fleet) := ⟨rfl, rfl, rfl, rfl⟩
  obtain ⟨walk, walked, agrees⟩ := @foldlM_canaryStep_cleared texts world fleet.canary fleet.applied.sourceCommit
    priorRender passes approves _ _ initial (fleet.wavePlan.assign connected).zipIdx
  refine ⟨walk, ?_, agrees.steps, congrArg RolloutState.pushes agrees.state, congrArg RolloutState.fleet agrees.state,
    agrees.haltedAt, agrees.rollback.trans (rollOutPlan_rollback texts world fleet connected)⟩
  rw [rollOutPlanCanary, enabled]
  exact walked

namespace Upgrade

/-- An upgrade of two waves. -/
theorem upgrade_cleared :
    ∃ walk, rollOutPlanCanary namesAsConfig (failingAt 0).cleared upgrading connected (some firstRender) = some walk ∧
      walk.steps = (rollOutPlan namesAsConfig (failingAt 0).cleared upgrading connected).steps ∧
      walk.state.pushes = (rollOutPlan namesAsConfig (failingAt 0).cleared upgrading connected).state.pushes ∧
      walk.state.fleet = (rollOutPlan namesAsConfig (failingAt 0).cleared upgrading connected).state.fleet ∧
      walk.haltedAt = (rollOutPlan namesAsConfig (failingAt 0).cleared upgrading connected).haltedAt ∧
      walk.rollback = none :=
  rollOutPlanCanary_cleared namesAsConfig (failingAt 0).cleared upgrading connected (some firstRender)
    (by decide) (fun _ => rfl) (fun _ => rfl)

end Upgrade

/-! ### What a walk returns -/

/-- The wave was put on the target, or has no nodes. -/
def WaveStepState.GoesOn : WaveStepState → Prop
  | .advanced _ | .empty => True
  | .halted _ _ | .frozen _ => False

def WaveStepState.IsHalted (state : WaveStepState) : Prop := ∃ commit divergences, state = .halted commit divergences

def WaveStepState.IsFrozen (state : WaveStepState) : Prop := ∃ commit, state = .frozen commit

def WaveStepState.IsAdvanced (state : WaveStepState) : Prop := ∃ commit, state = .advanced commit

/-- The waves that went on, then at most one that halted, then frozen ones. -/
inductive StepsShape : List WaveStep → Prop
  | running {ahead : List WaveStep} (on : ∀ step ∈ ahead, step.state.GoesOn) : StepsShape ahead
  | stopped {ahead frozen : List WaveStep} {halt : WaveStep} (on : ∀ step ∈ ahead, step.state.GoesOn)
      (halted : halt.state.IsHalted) (behind : ∀ step ∈ frozen, step.state.IsFrozen) :
      StepsShape (ahead ++ halt :: frozen)

/-- What a walk returns over the waves it was given: a step for each of them in order, of the shape of a walk; commits
    that are new for the waves that advanced only; and the index of the wave that halted. -/
structure WellShaped (waves : List AssignedWave) (start : Fleet) (walk : Walk) : Prop where
  names : walk.steps.map (·.waveName) = waves.map (·.name)
  shape : StepsShape walk.steps
  commits : ∀ name : String, walk.state.fleet.waveCommit[name]? ≠ start.waveCommit[name]? →
    ∃ step ∈ walk.steps, step.waveName = name ∧ step.state.IsAdvanced
  halted : ∀ idx, walk.haltedAt = some idx ↔ ∃ step, walk.steps[idx]? = some step ∧ step.state.IsHalted

theorem WaveStepState.GoesOn.not_halted {state : WaveStepState} (on : state.GoesOn) : ¬ state.IsHalted := by
  rintro ⟨commit, divergences, rfl⟩
  exact on

theorem WaveStepState.IsFrozen.not_halted {state : WaveStepState} (frozen : state.IsFrozen) : ¬ state.IsHalted := by
  rintro ⟨commit, divergences, rfl⟩
  obtain ⟨_, other⟩ := frozen
  cases other

/-- The only wave that halted is the one at its index. -/
theorem halted_getElem?_iff {ahead frozen : List WaveStep} {halt : WaveStep}
    (on : ∀ step ∈ ahead, step.state.GoesOn) (halted : halt.state.IsHalted)
    (behind : ∀ step ∈ frozen, step.state.IsFrozen) (idx : Nat) :
    (∃ step, (ahead ++ halt :: frozen)[idx]? = some step ∧ step.state.IsHalted) ↔ idx = ahead.length := by
  constructor
  · rintro ⟨step, found, halts⟩
    by_contra other
    rcases Nat.lt_or_gt_of_ne other with before | after
    · rw [List.getElem?_append_left before] at found
      exact (on step (List.mem_of_getElem? found)).not_halted halts
    · obtain ⟨later, rfl⟩ := Nat.exists_eq_add_of_lt after
      rw [List.getElem?_append_right (by omega), show ahead.length + later + 1 - ahead.length = later + 1 by omega,
        List.getElem?_cons_succ] at found
      exact (behind step (List.mem_of_getElem? found)).not_halted halts
  · rintro rfl
    exact ⟨halt, by simp, halted⟩

/-- What an analysed walk has collected over its first waves. -/
structure Shaping (done : List AssignedWave) (start : Fleet) (walk : Walk) : Prop where
  names : walk.steps.map (·.waveName) = done.map (·.name)
  commits : walk.rollback = none → ∀ name : String, walk.state.fleet.waveCommit[name]? ≠ start.waveCommit[name]? →
    ∃ step ∈ walk.steps, step.waveName = name ∧ step.state.IsAdvanced
  shape : (walk.stopped = false ∧ ∀ step ∈ walk.steps, step.state.GoesOn) ∨
    ∃ ahead halt frozen, walk.steps = ahead ++ halt :: frozen ∧ (∀ step ∈ ahead, step.state.GoesOn) ∧
      halt.state.IsHalted ∧ (∀ step ∈ frozen, step.state.IsFrozen) ∧
      (walk.haltedAt = some ahead.length ∧ walk.rollback = none ∨ walk.haltedAt = none ∧ walk.rollback.isSome = true)

theorem Walk.running {walk : Walk} (running : walk.stopped = false) : walk.haltedAt = none ∧ walk.rollback = none := by
  simpa [Walk.stopped] using running

/-- The walk so far is well shaped exactly when it has rolled nothing back. -/
theorem Shaping.shape_iff {waves : List AssignedWave} {start : Fleet} {walk : Walk}
    (shaping : Shaping waves start walk) : WellShaped waves start walk ↔ walk.rollback = none := by
  rcases shaping.shape with ⟨running, on⟩ | ⟨ahead, halt, frozen, steps, on, halted, behind, index⟩
  · obtain ⟨unhalted, unrolled⟩ := walk.running running
    refine iff_of_true ⟨shaping.names, .running on, shaping.commits unrolled, fun idx => ?_⟩ unrolled
    rw [unhalted]
    refine iff_of_false (by simp) ?_
    rintro ⟨step, found, halts⟩
    exact (on step (List.mem_of_getElem? found)).not_halted halts
  · have only := halted_getElem?_iff on halted behind
    rcases index with ⟨haltedAt, unrolled⟩ | ⟨unhalted, rolled⟩
    · refine iff_of_true ⟨shaping.names, steps ▸ .stopped on halted behind, shaping.commits unrolled, fun idx => ?_⟩
        unrolled
      rw [haltedAt, steps, only, Option.some.injEq, eq_comm]
    · refine iff_of_false (fun shaped => ?_) (Option.isSome_iff_ne_none.mp rolled)
      have found := (shaped.halted ahead.length).mpr (steps ▸ (only _).mpr rfl)
      rw [unhalted] at found
      cases found

theorem Shaping.start (start : Fleet) : Shaping [] start (.new start) :=
  ⟨rfl, fun _ _ changed => absurd rfl changed, .inl ⟨rfl, List.forall_mem_nil _⟩⟩

/-- A wave that is not pushed adds its step, and leaves the rest. -/
theorem Shaping.append_names {done : List AssignedWave} {start : Fleet} {walk : Walk} (shaping : Shaping done start walk)
    (wave : AssignedWave) (nodeCount : Nat) (state : WaveStepState) :
    (walk.steps ++ [(⟨wave.name, nodeCount, state⟩ : WaveStep)]).map (·.waveName) =
      (done ++ [wave]).map (·.name) := by
  rw [List.map_append, List.map_append, shaping.names]
  rfl

/-- Commits that are as they were are new for no further wave. -/
theorem Shaping.keep_commits {done : List AssignedWave} {start : Fleet} {walk next : Walk}
    (shaping : Shaping done start walk) {outcome : WaveStep} (steps : next.steps = walk.steps ++ [outcome])
    (rollback : next.rollback = walk.rollback)
    (same : next.state.fleet.waveCommit = walk.state.fleet.waveCommit) (unrolled : next.rollback = none) :
    ∀ name : String, next.state.fleet.waveCommit[name]? ≠ start.waveCommit[name]? →
      ∃ step ∈ next.steps, step.waveName = name ∧ step.state.IsAdvanced := by
  intro name changed
  rw [same] at changed
  obtain ⟨step, inside, advanced⟩ := shaping.commits (rollback ▸ unrolled) name changed
  exact ⟨step, steps ▸ List.mem_append_left _ inside, advanced⟩

theorem forall_mem_append_singleton {α : Type*} {property : α → Prop} {xs : List α} (all : ∀ x ∈ xs, property x)
    {x : α} (last : property x) : ∀ y ∈ xs ++ [x], property y := by
  intro y inside
  rcases List.mem_append.mp inside with before | own
  · exact all y before
  · exact List.mem_singleton.mp own ▸ last

theorem Shaping.advance {done : List AssignedWave} {start : Fleet} {walk : Walk} (shaping : Shaping done start walk)
    (running : walk.stopped = false) (on : ∀ step ∈ walk.steps, step.state.GoesOn) {s : RolloutState}
    (same : walk.state.fleet.SameRecord s.fleet) {wave : AssignedWave} (nodeCount : Nat) (target : String)
    (gatesReleased : List String) :
    Shaping (done ++ [wave]) start (walk.advance s wave nodeCount target gatesReleased) := by
  refine ⟨shaping.append_names _ _ _, fun unrolled name changed => ?_,
    .inl ⟨running, forall_mem_append_singleton on trivial⟩⟩
  by_cases own : wave.name = name
  · exact ⟨_, List.mem_append_right _ (List.mem_singleton_self _), own, _, rfl⟩
  · have unchanged : (walk.advance s wave nodeCount target gatesReleased).state.fleet.waveCommit[name]? =
        walk.state.fleet.waveCommit[name]? := by
      rw [← same.waveCommit]
      simp [Walk.advance, Fleet.setWaveCommit, Std.TreeMap.getElem?_insert, own]
    rw [unchanged] at changed
    obtain ⟨step, inside, advanced⟩ := shaping.commits unrolled name changed
    exact ⟨step, List.mem_append_left _ inside, advanced⟩

section
variable {texts : RenderTexts} {world : World} {policy : CanaryPolicy} {target : String}
  {priorRender : Option Rendered}

/-- The shape of a walk survives one more wave. -/
theorem Taken.shaping {done : List AssignedWave} {start : Fleet} {walk next : Walk} {wave : AssignedWave}
    (taken : Taken texts world policy target priorRender walk wave done.length next)
    (shaping : Shaping done start walk) : Shaping (done ++ [wave]) start next := by
  have same := (runWaveNodes_frame texts world walk.state wave.nodeIds).1
  have count : walk.steps.length = done.length := by simpa using congrArg List.length shaping.names
  -- While the walk runs all waves went on so far.
  have goesOn (attempted : walk.stopped = false) : ∀ step ∈ walk.steps, step.state.GoesOn := by
    rcases shaping.shape with ⟨-, on⟩ | ⟨ahead, halt, frozen, -, -, -, -, index⟩
    · exact on
    · obtain ⟨unhalted, unrolled⟩ := walk.running attempted
      simp [unhalted, unrolled] at index
  cases taken with
  | frozen stopped =>
    refine ⟨shaping.append_names _ _ _, shaping.keep_commits rfl rfl rfl, .inr ?_⟩
    rcases shaping.shape with ⟨running, -⟩ | ⟨ahead, halt, frozen, steps, on, halted, behind, index⟩
    · rw [stopped] at running
      cases running
    · refine ⟨ahead, halt, frozen ++ [⟨wave.name, wave.nodeIds.length, .frozen _⟩], ?_, on, halted,
        forall_mem_append_singleton behind ⟨walk.state.fleet.frozenCommit wave.name, rfl⟩, index⟩
      rw [Walk.pass, steps, List.append_assoc, List.cons_append]
  | empty running none =>
    exact ⟨shaping.append_names _ _ _, shaping.keep_commits rfl rfl rfl,
      .inl ⟨running, forall_mem_append_singleton (goesOn running) trivial⟩⟩
  | halted attempted hash divergences s ran =>
    rw [ran] at same
    refine ⟨shaping.append_names _ _ _, shaping.keep_commits rfl rfl same.waveCommit, .inr ?_⟩
    refine ⟨walk.steps, _, [], rfl, goesOn attempted.1, ⟨_, _, rfl⟩, List.forall_mem_nil _, .inl ⟨?_, ?_⟩⟩
    · exact congrArg some count.symm
    · exact (walk.running attempted.1).2
  | rolledBack attempted hash nodeCount s ran failed analysis breach =>
    refine ⟨shaping.append_names _ _ _, (fun unrolled => by cases unrolled), .inr ?_⟩
    refine ⟨walk.steps, _, [], rfl, goesOn attempted.1, ⟨_, _, rfl⟩, List.forall_mem_nil _, .inr ⟨?_, rfl⟩⟩
    exact (walk.running attempted.1).1
  | advanced attempted hash nodeCount s ran passed ungated =>
    rw [ran] at same
    exact shaping.advance attempted.1 (goesOn attempted.1) same _ _ _
  | released attempted hash nodeCount s ran passed gated approved =>
    rw [ran] at same
    exact shaping.advance attempted.1 (goesOn attempted.1) same _ _ _

/-- A wave is rolled back exactly when it acknowledges and fails its analysis. -/
theorem Taken.rollback_iff {walk next : Walk} {wave : AssignedWave} {idx : Nat}
    (taken : Taken texts world policy target priorRender walk wave idx next) (unrolled : walk.rollback = none) :
    next.rollback = none ↔ PassesAnalysis texts world walk (wave, idx) := by
  cases taken with
  | frozen stopped => exact iff_of_true unrolled fun attempted => by cases stopped.symm.trans attempted.1
  | empty running none => exact iff_of_true unrolled fun attempted => absurd none attempted.2
  | halted attempted hash divergences s ran =>
    refine iff_of_true unrolled ?_
    rintro - ⟨hash, nodeCount, committed⟩
    rw [ran] at committed
    cases committed
  | rolledBack attempted hash nodeCount s ran failed analysis breach =>
    refine iff_of_false (by simp [Walk.rolledBack]) fun passes => failed (passes attempted ⟨hash, nodeCount, ?_⟩)
    rw [ran]
  | advanced attempted hash nodeCount s ran passed ungated => exact iff_of_true unrolled fun _ _ => passed
  | released attempted hash nodeCount s ran passed gated approved => exact iff_of_true unrolled fun _ _ => passed

/-- A rollback is not taken back. -/
theorem Taken.rolled {walk next : Walk} {wave : AssignedWave} {idx : Nat}
    (taken : Taken texts world policy target priorRender walk wave idx next) (unrolled : next.rollback = none) :
    walk.rollback = none := by
  cases taken with
  | rolledBack => cases unrolled
  | frozen | empty | halted | advanced | released => exact unrolled

/-- A walk rolls nothing back exactly when every wave that acknowledges passes its analysis. -/
theorem foldlM_canaryStep_rollback {walk final : Walk} {entries : List (AssignedWave × Nat)}
    (unrolled : walk.rollback = none)
    (walked : entries.foldlM (canaryStep texts world policy target priorRender) walk = some final) :
    final.rollback = none ↔
      Runs.Along (canaryStep texts world policy target priorRender) (PassesAnalysis texts world) walk entries := by
  rw [Runs.foldlM_eq_exec] at walked
  refine Runs.ok_iff_along (fun walk (unrolled : walk.rollback = none) => unrolled) ?_ ?_ unrolled walked
  · intro walk entry next unrolled stepped
    exact ⟨(canaryStep_taken stepped).rollback_iff unrolled, fun unrolled => unrolled⟩
  · intro walk entry next stepped unrolled
    exact (canaryStep_taken stepped).rolled unrolled

end

theorem walk_shaping {texts : RenderTexts} {world : World} {policy : CanaryPolicy} {target : String}
    {priorRender : Option Rendered} {waves : List AssignedWave} {start : Fleet} {final : Walk}
    (walked : waves.zipIdx.foldlM (canaryStep texts world policy target priorRender) (.new start) = some final) :
    Shaping waves start final :=
  foldlM_canaryStep_keeps (fun _ _ _ _ taken shaping => taken.shaping shaping) (.start start) walked

theorem rollOutPlan_wellShaped (texts : RenderTexts) (world : World) (fleet : Fleet)
    (connected : List (String × Labels)) :
    WellShaped (fleet.wavePlan.assign connected) fleet (rollOutPlan texts world fleet connected) := by
  obtain ⟨walk, walked, agrees⟩ := rollOutPlan_analysed texts world fleet connected
  have unrolled := agrees.rollback.trans (rollOutPlan_rollback texts world fleet connected)
  obtain ⟨names, shape, commits, halted⟩ :=
    (walk_shaping walked).shape_iff.mpr unrolled
  rw [agrees.steps] at names shape commits halted
  rw [agrees.state] at commits
  rw [agrees.haltedAt] at halted
  exact ⟨names, shape, commits, halted⟩

/-- Both walks, over every plan, fleet and way in which the waves answer: the plain walk returns a step for each wave,
    some that went on, then at most one that halted, and then frozen ones, with new commits for the waves that advanced
    and the index of the one that halted. The analysed walk returns the same if and only if every wave that
    acknowledges passes its analysis. -/
theorem wellShaped_iff (texts : RenderTexts) (world : World) (fleet : Fleet) (connected : List (String × Labels)) :
    WellShaped (fleet.wavePlan.assign connected) fleet (rollOutPlan texts world fleet connected) ∧
      ∀ priorRender walk, rollOutPlanCanary texts world fleet connected priorRender = some walk →
        (WellShaped (fleet.wavePlan.assign connected) fleet walk ↔
          (fleet.canary.enabled = true →
            Runs.Along (canaryStep texts world fleet.canary fleet.applied.sourceCommit priorRender)
              (PassesAnalysis texts world) (.new fleet) (fleet.wavePlan.assign connected).zipIdx)) := by
  have plain := rollOutPlan_wellShaped texts world fleet connected
  refine ⟨plain, fun priorRender walk walks => ?_⟩
  unfold rollOutPlanCanary at walks
  cases enabled : fleet.canary.enabled with
  | false =>
    rw [enabled] at walks
    obtain rfl := Option.some.inj walks
    exact iff_of_true plain fun off => by cases off
  | true =>
    rw [enabled] at walks
    rw [(walk_shaping walks).shape_iff, foldlM_canaryStep_rollback rfl walks]
    exact ⟨fun along _ => along, fun along => along rfl⟩

namespace Upgrade

/-- Both waves pass their analysis. -/
theorem upgrade_wellShaped : WellShaped [eu, us] upgrading (walked 2) := by
  have assigned : upgrading.wavePlan.assign connected = [eu, us] := by decide
  have walks : rollOutPlanCanary namesAsConfig (failingAt 2) upgrading connected (some firstRender) = some (walked 2) :=
    eq_some_getD (by decide) _
  have returned := (wellShaped_iff namesAsConfig (failingAt 2) upgrading connected).2 (some firstRender) _ walks
  rw [assigned] at returned
  refine returned.mpr fun _ => Runs.along_of_forall fun walk entry inside _ _ => ?_
  have passes : ∀ entry ∈ [eu, us].zipIdx, (failingAt 2).analysis entry.2 = .pass := by decide
  exact passes entry inside

/-- The second wave fails its analysis: its step says that it halted, but the walk does not. -/
theorem rolled_back_unmarked :
    ¬ ∀ (texts : RenderTexts) (world : World) (fleet : Fleet) (connected : List (String × Labels))
      (priorRender : Option Rendered) (walk : Walk),
      rollOutPlanCanary texts world fleet connected priorRender = some walk →
        WellShaped (fleet.wavePlan.assign connected) fleet walk := by
  intro claimed
  have shaped := claimed namesAsConfig (failingAt 1) upgrading connected (some firstRender) (walked 1)
    (eq_some_getD (by decide) _)
  have halts : ∃ step, (walked 1).steps[1]? = some step ∧ step.state.IsHalted :=
    ⟨⟨"us", 1, .halted "c1" []⟩, by decide, "c1", [], rfl⟩
  have marked := (shaped.halted 1).mpr halts
  revert marked
  decide

end Upgrade

end SmallGateway
