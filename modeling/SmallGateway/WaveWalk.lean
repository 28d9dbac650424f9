import SmallGateway.Rollout

/-!
The shape of a walk over the waves (`gatewayctl/src/{rollout,canary_rollout}.rs`), plain or analysed: one step for
each wave in order, nothing but frozen waves behind the first stop, and of the commits of the waves only those of
the waves that advanced are new.
-/

namespace SmallGateway

/-- How a step moves the walk from running to stopped, given the target of the walk. -/
def WaveStepState.Moves (target : String) : WaveStepState → Bool → Bool → Prop
  | .advanced commit, before, after => commit = target ∧ before = false ∧ after = false
  | .empty, before, after => before = false ∧ after = false
  | .halted _ _, before, after => before = false ∧ after = true
  | .frozen _, before, after => before = true ∧ after = true

/-- What a step leaves of the commit of its wave: the target when it advanced, and at most what was there
    otherwise. -/
def WaveStepState.Records (target : String) : WaveStepState → Option String → Option String → Prop
  | .advanced _, _, after => after = some target
  | _, before, after => ∀ commit, after = some commit → before = some commit

/-- One wave of a walk. -/
structure Turn (target : String) (walk next : Walk) (wave : AssignedWave) (outcome : WaveStep) : Prop where
  steps : next.steps = walk.steps ++ [outcome]
  name : outcome.waveName = wave.name
  moves : outcome.state.Moves target walk.stopped next.stopped
  applied : next.state.fleet.applied = walk.state.fleet.applied
  desired : next.state.fleet.desired = walk.state.fleet.desired
  records : outcome.state.Records target walk.state.fleet.waveCommit[wave.name]? next.state.fleet.waveCommit[wave.name]?
  others : ∀ name : String, name ≠ wave.name →
    next.state.fleet.waveCommit[name]? = walk.state.fleet.waveCommit[name]?

/-- Some waves of a walk, with the step of each. -/
inductive Turns (target : String) : Walk → List AssignedWave → List WaveStep → Walk → Prop
  | nil (walk : Walk) : Turns target walk [] [] walk
  | cons {walk next final : Walk} {wave : AssignedWave} {outcome : WaveStep} {waves : List AssignedWave}
      {outcomes : List WaveStep} (turn : Turn target walk next wave outcome)
      (later : Turns target next waves outcomes final) :
      Turns target walk (wave :: waves) (outcome :: outcomes) final

section
variable {texts : RenderTexts} {world : World} {policy : CanaryPolicy} {target : String}
  {priorRender : Option Rendered}

/-- A wave that changes neither what is desired nor any commit. -/
theorem Turn.of_sameRecord {walk next : Walk} {wave : AssignedWave} {outcome : WaveStep}
    (steps : next.steps = walk.steps ++ [outcome]) (name : outcome.waveName = wave.name)
    (moves : outcome.state.Moves target walk.stopped next.stopped)
    (unadvanced : ∀ commit, outcome.state ≠ .advanced commit)
    (same : walk.state.fleet.SameRecord next.state.fleet) : Turn target walk next wave outcome where
  steps := steps
  name := name
  moves := moves
  applied := same.applied
  desired := same.desired
  records := by
    rw [same.waveCommit]
    cases recorded : outcome.state with
    | advanced commit => exact absurd recorded (unadvanced commit)
    | halted commit divergences => exact fun _ found => found
    | frozen commit => exact fun _ found => found
    | empty => exact fun _ found => found
  others := by
    intro other _
    rw [same.waveCommit]

/-- A wave that acknowledged is recorded on the target. -/
theorem Turn.advance {walk next : Walk} {wave : AssignedWave} {s : RolloutState} {nodeCount : Nat}
    (steps : next.steps = walk.steps ++ [⟨wave.name, nodeCount, .advanced target⟩])
    (running : walk.stopped = false) (still : next.stopped = false)
    (same : walk.state.fleet.SameRecord s.fleet) (state : next.state.fleet = s.fleet.setWaveCommit wave.name target) :
    Turn target walk next wave ⟨wave.name, nodeCount, .advanced target⟩ where
  steps := steps
  name := rfl
  moves := ⟨rfl, running, still⟩
  applied := by rw [state]; exact same.applied
  desired := by rw [state]; exact same.desired
  records := by
    rw [state]
    simp [WaveStepState.Records, Fleet.setWaveCommit]
  others := by
    intro other different
    rw [state, ← same.waveCommit]
    simp [Fleet.setWaveCommit, Std.TreeMap.getElem?_insert, different.symm]

/-- A wave that is rolled back is put back on the commit that it was recorded on. -/
theorem Turn.rollBack {walk next : Walk} {wave : AssignedWave} {s : RolloutState} {nodeCount : Nat} {commit : String}
    (steps : next.steps = walk.steps ++ [⟨wave.name, nodeCount, .halted commit []⟩])
    (running : walk.stopped = false) (stopped : next.stopped = true)
    (same : walk.state.fleet.SameRecord s.fleet)
    (state : next.state = rollbackWave world s wave.name wave.nodeIds (s.fleet.frozenCommit wave.name) priorRender) :
    Turn target walk next wave ⟨wave.name, nodeCount, .halted commit []⟩ := by
  obtain ⟨record, -⟩ := rollbackWave_frame world s wave.name wave.nodeIds (s.fleet.frozenCommit wave.name) priorRender
  rw [← state] at record
  refine ⟨steps, rfl, ⟨running, stopped⟩, record.applied.trans same.applied, record.desired.trans same.desired, ?_, ?_⟩
  · intro recorded found
    rw [record.waveCommit] at found
    rw [← same.waveCommit]
    unfold Fleet.revertWaveCommit at found
    split at found
    · simp at found
    · rename_i named
      rw [Std.TreeMap.getElem?_insert_self, Option.some.injEq] at found
      subst found
      cases before : s.fleet.waveCommit[wave.name]? with
      | none => simp [Fleet.frozenCommit, before] at named
      | some prior => simp [Fleet.frozenCommit, before]
  · intro other different
    rw [record.waveCommit, ← same.waveCommit]
    unfold Fleet.revertWaveCommit
    split
    · simp [Std.TreeMap.getElem?_erase, different.symm]
    · simp [Std.TreeMap.getElem?_insert, different.symm]

theorem planStep_turn (walk : Walk) (entry : AssignedWave × Nat) :
    ∃ outcome, Turn target walk (planStep texts world target walk entry) entry.1 outcome := by
  obtain ⟨wave, idx⟩ := entry
  have same := (runWaveNodes_frame texts world walk.state wave.nodeIds).1
  by_cases stopped : walk.stopped = true
  · simp only [planStep, stopped, if_true]
    exact ⟨_, Turn.of_sameRecord rfl rfl ⟨stopped, stopped⟩ (by simp) (.refl _)⟩
  rw [Bool.not_eq_true] at stopped
  by_cases none : wave.nodeIds.isEmpty = true
  · simp only [planStep, stopped, none, if_true, Bool.false_eq_true, if_false]
    exact ⟨_, Turn.of_sameRecord rfl rfl ⟨stopped, stopped⟩ (by simp) (.refl _)⟩
  simp only [planStep, stopped, none, Bool.false_eq_true, if_false]
  split
  · rename_i hash nodeCount s ran
    rw [ran] at same
    exact ⟨_, Turn.advance rfl stopped stopped same rfl⟩
  · rename_i hash divergences s ran
    rw [ran] at same
    exact ⟨_, Turn.of_sameRecord rfl rfl ⟨stopped, rfl⟩ (by simp) same⟩
  · rename_i hash s ran
    rw [ran] at same
    exact ⟨_, Turn.of_sameRecord rfl rfl ⟨stopped, stopped⟩ (by simp) same⟩

theorem canaryStep_turn {walk next : Walk} {entry : AssignedWave × Nat}
    (stepped : canaryStep texts world policy target priorRender walk entry = some next) :
    ∃ outcome, Turn target walk next entry.1 outcome := by
  obtain ⟨wave, idx⟩ := entry
  have same := (runWaveNodes_frame texts world walk.state wave.nodeIds).1
  cases canaryStep_taken stepped with
  | frozen stopped => exact ⟨_, Turn.of_sameRecord rfl rfl ⟨stopped, stopped⟩ (by simp) (.refl _)⟩
  | empty running => exact ⟨_, Turn.of_sameRecord rfl rfl ⟨running, running⟩ (by simp) (.refl _)⟩
  | halted attempted hash divergences s ran =>
    rw [ran] at same
    exact ⟨_, Turn.of_sameRecord rfl rfl ⟨attempted.1, rfl⟩ (by simp) same⟩
  | rolledBack attempted hash nodeCount s ran =>
    rw [ran] at same
    exact ⟨_, Turn.rollBack rfl attempted.1 (by simp [Walk.stopped, Walk.rolledBack]) same rfl⟩
  | advanced attempted hash nodeCount s ran | released attempted hash nodeCount s ran =>
    rw [ran] at same
    exact ⟨_, Turn.advance rfl attempted.1 attempted.1 same rfl⟩

theorem foldl_planStep_turns (walk : Walk) (entries : List (AssignedWave × Nat)) :
    ∃ outcomes, Turns target walk (entries.map (·.1)) outcomes (entries.foldl (planStep texts world target) walk) := by
  induction entries generalizing walk with
  | nil => exact ⟨[], .nil walk⟩
  | cons entry entries ih =>
    obtain ⟨outcome, turn⟩ : ∃ outcome, Turn target walk (planStep texts world target walk entry) entry.1 outcome :=
      planStep_turn walk entry
    obtain ⟨outcomes, later⟩ := ih (planStep texts world target walk entry)
    exact ⟨outcome :: outcomes, .cons turn later⟩

theorem foldlM_canaryStep_turns {walk final : Walk} {entries : List (AssignedWave × Nat)}
    (walked : entries.foldlM (canaryStep texts world policy target priorRender) walk = some final) :
    ∃ outcomes, Turns target walk (entries.map (·.1)) outcomes final := by
  induction entries generalizing walk with
  | nil =>
    simp only [List.foldlM_nil, Option.pure_def, Option.some.injEq] at walked
    exact ⟨[], walked ▸ .nil walk⟩
  | cons entry entries ih =>
    rw [List.foldlM_cons, Option.bind_eq_bind, Option.bind_eq_some_iff] at walked
    obtain ⟨next, stepped, rest⟩ := walked
    obtain ⟨outcome, turn⟩ := canaryStep_turn stepped
    obtain ⟨outcomes, later⟩ := ih rest
    exact ⟨outcome :: outcomes, .cons turn later⟩

end

/-! ### Over a whole walk -/

namespace Turns

variable {target : String} {walk final : Walk} {waves : List AssignedWave} {outcomes : List WaveStep}

theorem steps (turns : Turns target walk waves outcomes final) : final.steps = walk.steps ++ outcomes := by
  induction turns with
  | nil => rw [List.append_nil]
  | cons turn _ ih => rw [ih, turn.steps, List.append_assoc, List.singleton_append]

theorem names (turns : Turns target walk waves outcomes final) :
    outcomes.map (·.waveName) = waves.map (·.name) := by
  induction turns with
  | nil => rfl
  | cons turn _ ih => rw [List.map_cons, List.map_cons, turn.name, ih]

theorem record (turns : Turns target walk waves outcomes final) :
    final.state.fleet.applied = walk.state.fleet.applied ∧ final.state.fleet.desired = walk.state.fleet.desired := by
  induction turns with
  | nil => exact ⟨rfl, rfl⟩
  | cons turn _ ih => exact ⟨ih.1.trans turn.applied, ih.2.trans turn.desired⟩

/-- Behind a stop every wave is frozen. -/
theorem frozen (turns : Turns target walk waves outcomes final) (stopped : walk.stopped = true) :
    ∀ outcome ∈ outcomes, ∃ commit, outcome.state = .frozen commit := by
  induction turns with
  | nil => simp
  | @cons walk next final wave outcome waves outcomes turn later ih =>
    have moves := turn.moves
    rw [List.forall_mem_cons]
    cases state : outcome.state with
    | advanced commit => simp [state, WaveStepState.Moves, stopped] at moves
    | halted commit divergences => simp [state, WaveStepState.Moves, stopped] at moves
    | empty => simp [state, WaveStepState.Moves, stopped] at moves
    | frozen commit =>
      rw [state] at moves
      exact ⟨⟨commit, rfl⟩, ih moves.2⟩

/-- A wave that advances comes before the one that stops the walk. -/
theorem advanced_lt_halted (turns : Turns target walk waves outcomes final) {j k : Nat} {stops advances : WaveStep}
    {commit prior : String} {divergences : List Divergence} (stopsAt : outcomes[k]? = some stops)
    (halted : stops.state = .halted prior divergences) (advancesAt : outcomes[j]? = some advances)
    (advanced : advances.state = .advanced commit) : j < k := by
  induction turns generalizing j k with
  | nil => simp at stopsAt
  | @cons walk next final wave outcome waves outcomes turn later ih =>
    cases k with
    | zero =>
      rw [List.getElem?_cons_zero, Option.some.injEq] at stopsAt
      subst stopsAt
      have moves := turn.moves
      rw [halted] at moves
      cases j with
      | zero =>
        rw [List.getElem?_cons_zero, Option.some.injEq] at advancesAt
        rw [advancesAt, advanced] at halted
        simp at halted
      | succ j =>
        rw [List.getElem?_cons_succ] at advancesAt
        obtain ⟨frozenOn, frozen⟩ := later.frozen moves.2 advances (List.mem_of_getElem? advancesAt)
        rw [advanced] at frozen
        simp at frozen
    | succ k =>
      cases j with
      | zero => omega
      | succ j =>
        rw [List.getElem?_cons_succ] at stopsAt advancesAt
        have := ih stopsAt advancesAt
        omega

/-- The commit of a name that no wave carries stays. -/
theorem unnamed (turns : Turns target walk waves outcomes final) {name : String} (unnamed : name ∉ waves.map (·.name)) :
    final.state.fleet.waveCommit[name]? = walk.state.fleet.waveCommit[name]? := by
  induction turns with
  | nil => rfl
  | cons turn _ ih =>
    rw [List.map_cons, List.mem_cons, not_or] at unnamed
    rw [ih unnamed.2, turn.others name unnamed.1]

/-- A commit at the end was there before, or its wave advanced. -/
theorem commit_from (turns : Turns target walk waves outcomes final) {name commit : String}
    (found : final.state.fleet.waveCommit[name]? = some commit) :
    (∃ outcome ∈ outcomes, outcome.waveName = name ∧ outcome.state = .advanced target) ∨
      walk.state.fleet.waveCommit[name]? = some commit := by
  induction turns with
  | nil => exact .inr found
  | @cons walk next final wave outcome waves outcomes turn later ih =>
    rcases ih found with ⟨advances, inside, named, advanced⟩ | before
    · exact .inl ⟨advances, List.mem_cons_of_mem _ inside, named, advanced⟩
    by_cases own : name = wave.name
    · subst own
      have records := turn.records
      have moves := turn.moves
      cases state : outcome.state with
      | advanced on =>
        rw [state] at moves
        exact .inl ⟨outcome, List.mem_cons_self, turn.name, moves.1 ▸ state⟩
      | halted on divergences =>
        rw [state] at records
        exact .inr (records commit before)
      | frozen on =>
        rw [state] at records
        exact .inr (records commit before)
      | empty =>
        rw [state] at records
        exact .inr (records commit before)
    · exact .inr ((turn.others name own).symm.trans before)

/-- A wave that advanced is recorded on the target, when no two waves share a name. -/
theorem advanced_commit (turns : Turns target walk waves outcomes final) (distinct : (waves.map (·.name)).Nodup)
    {outcome : WaveStep} {commit : String} (inside : outcome ∈ outcomes) (advanced : outcome.state = .advanced commit) :
    final.state.fleet.waveCommit[outcome.waveName]? = some target := by
  induction turns with
  | nil => simp at inside
  | @cons walk next final wave first waves outcomes turn later ih =>
    rw [List.map_cons, List.nodup_cons] at distinct
    rcases List.mem_cons.mp inside with rfl | inside
    · have records := turn.records
      rw [advanced] at records
      rw [turn.name, later.unnamed distinct.1]
      exact records
    · exact ih distinct.2 inside

end Turns

end SmallGateway
