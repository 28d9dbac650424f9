import SmallGateway.Correlation

/-!
The committed version of the fleet (`run_wave_nodes` and `run_wave` in `gatewayctl/src/rollout.rs`, `conclude_wave_multi`
in `gatewayctl/src/fleet.rs`). A wave reads it when it begins, raises its copy to the versions of its own pushes, and
stores the copy when all of its nodes have acknowledged. Waves overlap: what is stored is always the version of a wave
that committed, and it goes down exactly when a wave commits after one of a higher version has committed since it began
(`committed_version_iff`).
-/

namespace SmallGateway.Correlation

/-- What the wave comes to when it is concluded now. -/
def conclusion (s : Correlation) (wave : Wave) : WaveOutcome :=
  (s.fleet.concludeWaveMulti wave.outcomeHash wave.expected wave.version wave.results).1

/-- The wave that the action commits, if any. -/
def commits (s : Correlation) : Action → Option Wave
  | .move i .conclude => s.waves[i]?.bind fun wave =>
    match s.conclusion wave with
    | .committed _ _ => some wave
    | _ => none
  | _ => none

def Action.begins : Action → Bool
  | .wave _ _ _ | .raw _ => true
  | _ => false

/-- A wave that is under way, one step later: its copy of the version only grows, and while it has nodes to push to. -/
structure Wave.Onward (wave next : Wave) : Prop where
  nodeIds : next.nodeIds = wave.nodeIds
  version : wave.version ≤ next.version
  pushed : wave.remaining = [] → next.version = wave.version
  outcome : ∀ outcome, wave.outcome = some outcome → next.outcome = some outcome

theorem Wave.Onward.of_same {wave next : Wave} (nodeIds : next.nodeIds = wave.nodeIds)
    (version : next.version = wave.version) (outcome : next.outcome = wave.outcome) : wave.Onward next :=
  ⟨nodeIds, version.ge, fun _ => version, fun _ same => outcome.trans same⟩

theorem clearPending_frame (s : Correlation) (nodeId : String) (pushId : Nat) :
    (s.clearPending nodeId pushId).fleet = s.fleet ∧ (s.clearPending nodeId pushId).waves = s.waves := by
  unfold clearPending
  cases s.sessions[nodeId]? with
  | none => exact ⟨rfl, rfl⟩
  | some session => exact ⟨rfl, rfl⟩

theorem singleTurn_frame {s t : Correlation} {single next : Single} {move : SingleMove}
    (moved : singleTurn s single move = some (t, next)) :
    t.waves = s.waves ∧ t.fleet.committedVersion = s.fleet.committedVersion := by
  unfold singleTurn at moved
  split at moved
  · rename_i nodeId _ version sends
    obtain ⟨rfl, rfl⟩ := Prod.mk.inj (Option.some.inj moved)
    obtain ⟨untouched, -, -⟩ := pushAndAwait_frame s nodeId version sends
    exact ⟨untouched.waves, congrArg Fleet.committedVersion untouched.fleet⟩
  · obtain ⟨rfl, rfl⟩ := Prod.mk.inj (Option.some.inj moved)
    exact ⟨rfl, rfl⟩
  · rename_i nodeId pushId _
    obtain ⟨rfl, rfl⟩ := Prod.mk.inj (Option.some.inj moved)
    obtain ⟨fleet, waves⟩ := clearPending_frame s nodeId pushId
    exact ⟨waves, congrArg Fleet.committedVersion fleet⟩
  · cases moved

/-- A step of a wave leaves the other waves, and the committed version unless it concludes the wave. -/
theorem waveTurn_onward {texts : RenderTexts} {s t : Correlation} {wave next : Wave} {move : WaveMove}
    (moved : waveTurn texts s wave move = some (t, next)) :
    wave.Onward next ∧ t.waves = s.waves ∧
      (move ≠ .conclude → t.fleet.committedVersion = s.fleet.committedVersion) := by
  cases waveTurn_taken moved with
  | raw | applied | silent | take | giveUp => exact ⟨.of_same rfl rfl rfl, rfl, fun _ => rfl⟩
  | desired labels _ => exact ⟨.of_same rfl rfl rfl, rfl, fun _ => (s.fleet.desiredFor_versions texts labels).2⟩
  | mint first computed =>
    refine ⟨⟨rfl, le_max_left _ _, fun none => ?_, fun _ same => same⟩, rfl, fun _ => rfl⟩
    rw [first] at none
    cases none
  | @push sends nodeId _ _ version first given =>
    obtain ⟨untouched, -, -⟩ := pushAndAwait_frame s nodeId version sends
    refine ⟨.of_same rfl rfl rfl, untouched.waves, fun _ => ?_⟩
    rw [untouched.fleet]
  | @clear nodeId _ _ pushId _ awaits =>
    obtain ⟨fleet, waves⟩ := clearPending_frame s nodeId pushId
    exact ⟨.of_same rfl rfl rfl, waves, fun _ => congrArg Fleet.committedVersion fleet⟩
  | conclude running =>
    refine ⟨⟨rfl, le_rfl, fun _ => rfl, fun outcome concluded => ?_⟩, rfl, fun other => absurd rfl other⟩
    rw [running] at concluded
    cases concluded

theorem conclude_unchanged {fleet : Fleet} {outcomeHash : String} {expected : List (String × String)} {version : Nat}
    {results : List (String × AckResult)}
    (uncommitted : ∀ hash nodeCount,
      (fleet.concludeWaveMulti outcomeHash expected version results).1 ≠ .committed hash nodeCount) :
    (fleet.concludeWaveMulti outcomeHash expected version results).2 = fleet := by
  unfold Fleet.concludeWaveMulti at uncommitted ⊢
  split
  · rfl
  · rename_i answered
    dsimp only at uncommitted ⊢
    rw [if_neg answered] at uncommitted
    split
    · rename_i clean
      rw [if_pos clean] at uncommitted
      exact absurd rfl (uncommitted _ _)
    · rfl

theorem commits_eq_some {s : Correlation} {action : Action} {wave : Wave} (commits : s.commits action = some wave) :
    ∃ i hash nodeCount, action = .move i .conclude ∧ s.waves[i]? = some wave ∧
      s.conclusion wave = .committed hash nodeCount := by
  unfold Correlation.commits at commits
  split at commits
  · rename_i i
    obtain ⟨other, under, committed⟩ := Option.bind_eq_some_iff.mp commits
    split at committed
    · rename_i hash nodeCount concluded
      obtain rfl := Option.some.inj committed
      exact ⟨i, hash, nodeCount, rfl, under, concluded⟩
    · cases committed
  · cases commits

theorem conclude_moved {texts : RenderTexts} {s t : Correlation} {wave next : Wave}
    (moved : waveTurn texts s wave .conclude = some (t, next)) :
    t.fleet =
        (s.fleet.concludeWaveMulti wave.outcomeHash wave.expected wave.version wave.results).2 ∧
      next.outcome = some (s.conclusion wave) ∧ next.version = wave.version := by
  cases waveTurn_taken moved with
  | conclude => exact ⟨rfl, rfl, rfl⟩

/-- What one step does to the waves and to the committed version. -/
structure Advanced (s t : Correlation) (action : Action) : Prop where
  onward : ∀ (i : Nat) (wave : Wave), s.waves[i]? = some wave → ∃ next, t.waves[i]? = some next ∧ wave.Onward next
  begun : action.begins = true → ∃ wave, t.waves = s.waves ++ [wave] ∧ wave.version = s.fleet.committedVersion
  others : action.begins = false → t.waves.length = s.waves.length
  committedVersion :
    t.fleet.committedVersion = ((s.commits action).map (·.version)).getD s.fleet.committedVersion
  committed : ∀ wave, s.commits action = some wave → ∃ next ∈ t.waves, ∃ hash nodeCount,
    next.outcome = some (.committed hash nodeCount) ∧ next.version = wave.version

/-- A step that leaves the waves and the committed version. -/
theorem Advanced.of_same {s t : Correlation} {action : Action} (waves : t.waves = s.waves)
    (version : t.fleet.committedVersion = s.fleet.committedVersion) (begins : action.begins = false)
    (commits : s.commits action = none) : Advanced s t action where
  onward i wave under := ⟨wave, waves ▸ under, .of_same rfl rfl rfl⟩
  begun begun := by cases begins.symm.trans begun
  others _ := congrArg List.length waves
  committedVersion := by rw [commits, version]; rfl
  committed wave found := by cases commits.symm.trans found

theorem beginWave_advanced (s : Correlation) (raw : Option Rendered) (nodeIds : List String) {action : Action}
    (begins : action.begins = true) (commits : s.commits action = none) :
    Advanced s (s.beginWave raw nodeIds) action where
  onward i wave under := by
    refine ⟨wave, ?_, .of_same rfl rfl rfl⟩
    exact (List.getElem?_append_left (List.getElem?_eq_some_iff.mp under).1).trans under
  begun _ := ⟨_, rfl, rfl⟩
  others other := by cases begins.symm.trans other
  committedVersion := by rw [commits]; rfl
  committed wave found := by cases commits.symm.trans found

theorem commits_other {s : Correlation} {i : Nat} {move : WaveMove} (other : move ≠ .conclude) :
    s.commits (.move i move) = none := by
  cases move with
  | conclude => exact absurd rfl other
  | _ => rfl

/-- A wave that is concluded stores its version when it commits. -/
theorem concluded_version {s : Correlation} {fleet : Fleet} {i : Nat} {wave : Wave} (under : s.waves[i]? = some wave)
    (concluded : fleet = (s.fleet.concludeWaveMulti wave.outcomeHash wave.expected wave.version wave.results).2) :
    fleet.committedVersion =
      ((s.commits (.move i .conclude)).map (·.version)).getD s.fleet.committedVersion := by
  rw [concluded]
  simp only [Correlation.commits, under, Option.bind_some]
  cases outcome : s.conclusion wave with
  | committed hash nodeCount => exact Fleet.concludeWaveMulti_committed outcome
  | halted hash divergences =>
    rw [conclude_unchanged fun hash nodeCount same => by cases outcome.symm.trans same]
    rfl
  | noNodes hash =>
    rw [conclude_unchanged fun hash nodeCount same => by cases outcome.symm.trans same]
    rfl

/-- A step of the wave at a place. -/
theorem move_advanced {texts : RenderTexts} {s t : Correlation} {i : Nat} {wave next : Wave} {move : WaveMove}
    (under : s.waves[i]? = some wave) (moved : waveTurn texts s wave move = some (t, next)) :
    Advanced s { t with waves := t.waves.set i next } (.move i move) := by
  obtain ⟨onward, waves, version⟩ := waveTurn_onward moved
  have inRange := (List.getElem?_eq_some_iff.mp under).1
  have placed : (t.waves.set i next)[i]? = some next := by
    rw [waves]
    exact List.getElem?_set_self inRange
  refine ⟨fun j other there => ?_, (fun begins => by cases begins), fun _ => ?_, ?_, fun other commits => ?_⟩
  · by_cases same : i = j
    · subst same
      obtain rfl := Option.some.inj (under.symm.trans there)
      exact ⟨next, placed, onward⟩
    · refine ⟨other, ?_, .of_same rfl rfl rfl⟩
      rw [waves]
      exact (List.getElem?_set_ne same).trans there
  · rw [List.length_set, waves]
  · by_cases concludes : move = .conclude
    · subst concludes
      exact concluded_version under (conclude_moved moved).1
    · rw [commits_other concludes]
      exact version concludes
  · obtain ⟨j, hash, nodeCount, same, found, concluded⟩ := commits_eq_some commits
    obtain ⟨rfl, rfl⟩ := Action.move.inj same
    obtain rfl := Option.some.inj (under.symm.trans found)
    obtain ⟨-, outcome, own⟩ := conclude_moved moved
    exact ⟨next, List.mem_of_getElem? placed, hash, nodeCount, outcome.trans (congrArg some concluded), own⟩

theorem step_advanced {texts : RenderTexts} {s t : Correlation} {action : Action} (slots : s.Slots)
    (stepped : step texts s action = some t) : Advanced s t action := by
  cases action with
  | open_ nodeId =>
    obtain rfl := Option.some.inj stepped
    exact .of_same rfl rfl rfl rfl
  | close nodeId =>
    obtain rfl := Option.some.inj stepped
    exact .of_same rfl rfl rfl rfl
  | answer nodeId version answer =>
    obtain rfl := Option.some.inj stepped
    obtain ⟨-, untouched, -⟩ := deliver_keeps slots nodeId version answer
    exact .of_same untouched.waves (congrArg Fleet.committedVersion untouched.fleet) rfl rfl
  | apply next resolved plan =>
    obtain rfl := Option.some.inj stepped
    exact .of_same rfl rfl rfl rfl
  | wave plan connected place =>
    obtain ⟨wave, placed, rfl⟩ := Option.map_eq_some_iff.mp stepped
    exact beginWave_advanced s none wave.nodeIds rfl rfl
  | raw rendered =>
    obtain rfl := Option.some.inj stepped
    exact beginWave_advanced s (some rendered) s.sessions.keys rfl rfl
  | move i move =>
    obtain ⟨wave, u, next, under, moved, rfl⟩ := step_move stepped
    exact move_advanced under moved
  | single nodeId rendered =>
    obtain rfl := Option.some.inj stepped
    exact .of_same rfl rfl rfl rfl
  | singleMove i move =>
    obtain ⟨single, u, next, under, moved, rfl⟩ := step_singleMove stepped
    obtain ⟨waves, version⟩ := singleTurn_frame moved
    exact .of_same waves version rfl rfl

/-! ### The committed version over a run -/

/-- The system, with the versions of the waves that have committed so far, and of every wave how many had when it
    began. -/
structure CommitLog where
  system : Correlation
  committed : List Nat
  begun : List Nat

namespace CommitLog

def init (applied : Rendered) (source : ResolvedRepo) (plan : WavePlan) : CommitLog :=
  ⟨.init applied source plan, [], []⟩

def step (texts : RenderTexts) (log : CommitLog) (action : Action) : Option CommitLog :=
  (log.system.step texts action).map fun system => {
    system
    committed := log.committed ++ (log.system.commits action).toList.map (·.version)
    begun := log.begun ++ if action.begins then [log.committed.length] else [] }

/-- The versions that have been committed since a wave began. -/
def since (log : CommitLog) (i : Nat) : List Nat := log.committed.drop (log.begun[i]?.getD 0)

/-- The step does not lower the committed version. -/
def Keeps (texts : RenderTexts) (log : CommitLog) (action : Action) : Prop :=
  ∀ after, log.step texts action = some after →
    log.system.fleet.committedVersion ≤ after.system.fleet.committedVersion

/-- No wave that has committed since the one that the step commits began, has a higher version. -/
def NotOvertaken (log : CommitLog) (action : Action) : Prop :=
  ∀ i wave, action = .move i .conclude → log.system.commits action = some wave →
    ∀ version ∈ log.since i, version ≤ wave.version

instance (log : CommitLog) (action : Action) : Decidable (log.NotOvertaken action) :=
  match action with
  | .move i .conclude =>
    decidable_of_iff (∀ wave ∈ (log.system.commits (.move i .conclude)).toList, ∀ version ∈ log.since i,
      version ≤ wave.version) <| by
        simp only [Option.mem_toList, NotOvertaken]
        refine ⟨fun bounded j wave same commits => ?_, fun bounded wave commits => bounded i wave rfl commits⟩
        obtain ⟨rfl, -⟩ := Action.move.inj same
        exact bounded wave commits
  | .move i (.render _) | .move i .mint | .move i (.push _) | .move i .take | .move i .giveUp | .move i .clear
  | .open_ _ | .close _ | .answer _ _ _ | .apply _ _ _ | .wave _ _ _ | .raw _ | .single _ _ | .singleMove _ _ =>
    isTrue (by simp [NotOvertaken])

/-- The committed version is that of a wave all of whose nodes have acknowledged, or nothing was committed yet. -/
def FromWave (log : CommitLog) : Prop :=
  log.committed = [] ∧ log.system.fleet.committedVersion = 0 ∨
    ∃ wave ∈ log.system.waves, (∃ hash nodeCount, wave.outcome = some (.committed hash nodeCount)) ∧
      wave.version = log.system.fleet.committedVersion ∧
      ∀ nodeId ∈ wave.nodeIds, log.system.AcknowledgedBy wave nodeId

/-- The committed version is the last one, and each wave has at least the one from when it began. -/
structure Logged (log : CommitLog) : Prop where
  sound : log.system.Sound
  last : log.committed.getLast?.getD 0 = log.system.fleet.committedVersion
  begun : log.begun.length = log.system.waves.length
  early : ∀ (i : Nat) (wave : Wave), log.system.waves[i]? = some wave →
    (log.committed.take (log.begun[i]?.getD 0)).getLast?.getD 0 ≤ wave.version
  counts : ∀ count ∈ log.begun, count ≤ log.committed.length

theorem logged_init (applied : Rendered) (source : ResolvedRepo) (plan : WavePlan) :
    (init applied source plan).Logged :=
  ⟨sound_init applied source plan, rfl, rfl, fun _ _ found => (by cases found), List.forall_mem_nil _⟩

theorem logged_step (texts : RenderTexts) : Runs.Preserves (step texts) Logged := by
  intro log action after logged stepped
  obtain ⟨system, moved, rfl⟩ := Option.map_eq_some_iff.mp stepped
  have advanced := step_advanced logged.sound.slots moved
  refine ⟨sound_step texts _ _ _ logged.sound moved, ?_, ?_, ?_, ?_⟩
  · rw [advanced.committedVersion, ← logged.last]
    cases log.system.commits action with
    | none => simp
    | some wave => simp
  · cases begins : action.begins with
    | true =>
      obtain ⟨wave, waves, -⟩ := advanced.begun begins
      simp [waves, logged.begun]
    | false =>
      simpa [logged.begun] using (advanced.others begins).symm
  · intro i wave under
    dsimp only
    rcases Nat.lt_or_ge i log.system.waves.length with old | new
    · -- A wave from before the step has its version still, or a higher one.
      have inRange : i < log.begun.length := logged.begun ▸ old
      obtain ⟨next, found, onward⟩ := advanced.onward i _ (List.getElem?_eq_getElem old)
      obtain rfl := Option.some.inj (found.symm.trans under)
      have early := logged.early i _ (List.getElem?_eq_getElem old)
      rw [List.getElem?_eq_getElem inRange, Option.getD_some] at early
      rw [List.getElem?_append_left inRange, List.getElem?_eq_getElem inRange, Option.getD_some,
        List.take_append_of_le_length (logged.counts _ (List.getElem_mem inRange))]
      exact early.trans onward.version
    · -- A wave that begins has the committed version of now.
      cases begins : action.begins with
      | false =>
        have inRange : i < system.waves.length := (List.getElem?_eq_some_iff.mp under).1
        rw [advanced.others begins] at inRange
        exact absurd inRange (Nat.not_lt.mpr new)
      | true =>
        obtain ⟨first, waves, version⟩ := advanced.begun begins
        rw [waves] at under
        have last : i = log.begun.length := by
          have := (List.getElem?_eq_some_iff.mp under).1
          rw [List.length_append, List.length_singleton] at this
          rw [logged.begun]
          omega
        have own : first = wave := by
          rw [last, logged.begun, List.getElem?_concat_length] at under
          exact Option.some.inj under
        rw [if_pos rfl, last, List.getElem?_concat_length, Option.getD_some, List.take_left, logged.last, ← version, own]
  · intro count inside
    rw [List.length_append]
    rcases List.mem_append.mp inside with before | new
    · exact Nat.le_add_right_of_le (logged.counts count before)
    · split at new
      · rw [List.mem_singleton.mp new]
        exact Nat.le_add_right _ _
      · cases new

/-- While no step lowers the committed version, the versions committed so far are in order. -/
structure Ascending (log : CommitLog) : Prop where
  logged : log.Logged
  sorted : log.committed.Pairwise (· ≤ ·)

theorem Ascending.le_committed {log : CommitLog} (ascending : log.Ascending) :
    ∀ version ∈ log.committed, version ≤ log.system.fleet.committedVersion := by
  intro version inside
  rw [← ascending.logged.last]
  cases last : log.committed.getLast? with
  | none => rw [List.getLast?_eq_none_iff.mp last] at inside; cases inside
  | some newest =>
    obtain ⟨earlier, split⟩ := List.getLast?_eq_some_iff.mp last
    have sorted := ascending.sorted
    rw [split, List.pairwise_append] at sorted
    rw [split] at inside
    rcases List.mem_append.mp inside with before | own
    · exact sorted.2.2 version before newest List.mem_cons_self
    · exact (List.mem_singleton.mp own).le

theorem keeps_iff {texts : RenderTexts} {log after : CommitLog} {action : Action}
    (logged : log.Logged) (stepped : log.step texts action = some after) :
    log.Keeps texts action ↔ ∀ wave, log.system.commits action = some wave →
      log.system.fleet.committedVersion ≤ wave.version := by
  have only : log.Keeps texts action ↔
      log.system.fleet.committedVersion ≤ after.system.fleet.committedVersion := by
    unfold Keeps
    rw [stepped]
    simp
  obtain ⟨system, moved, rfl⟩ := Option.map_eq_some_iff.mp stepped
  rw [only, (step_advanced logged.sound.slots moved).committedVersion]
  cases log.system.commits action with
  | none => simp
  | some wave => simp

/-- A wave that commits has at least the committed version exactly when it was not overtaken. -/
theorem keeps_iff_notOvertaken {texts : RenderTexts} {log after : CommitLog} {action : Action}
    (ascending : log.Ascending) (stepped : log.step texts action = some after) :
    log.Keeps texts action ↔ log.NotOvertaken action := by
  have logged := ascending.logged
  rw [keeps_iff logged stepped]
  constructor
  · intro keeps i wave concludes commits version inside
    exact (ascending.le_committed version (List.mem_of_mem_drop inside)).trans (keeps wave commits)
  · intro notOvertaken wave commits
    obtain ⟨i, -, -, concludes, under, -⟩ := commits_eq_some commits
    have bounded := notOvertaken i wave concludes commits
    have early := logged.early i wave under
    unfold since at bounded
    -- The last version to be committed is one from before the wave began, or one since.
    rw [← logged.last, ← List.take_append_drop (log.begun[i]?.getD 0) log.committed, List.getLast?_append]
    cases last : (log.committed.drop (log.begun[i]?.getD 0)).getLast? with
    | none => simpa using early
    | some newest => exact bounded newest (List.mem_of_getLast? last)

theorem ascending_step {texts : RenderTexts} {log after : CommitLog} {action : Action} (ascending : log.Ascending)
    (keeps : log.Keeps texts action) (stepped : log.step texts action = some after) : after.Ascending := by
  refine ⟨logged_step texts _ _ _ ascending.logged stepped, ?_⟩
  have raised := (keeps_iff ascending.logged stepped).mp keeps
  obtain ⟨system, moved, rfl⟩ := Option.map_eq_some_iff.mp stepped
  dsimp only
  cases commits : log.system.commits action with
  | none => simpa using ascending.sorted
  | some wave =>
    refine List.pairwise_append.mpr ⟨ascending.sorted, List.pairwise_singleton _ _, fun version inside other own => ?_⟩
    rw [List.mem_singleton.mp own]
    exact (ascending.le_committed version inside).trans (raised wave commits)

/-- The committed version is always that of a wave that committed. -/
theorem fromWave_step {texts : RenderTexts} {log after : CommitLog} {action : Action} (logged : log.Logged)
    (stepped : log.step texts action = some after) (before : log.FromWave) : after.FromWave := by
  have sound := (logged_step texts _ _ _ logged stepped).sound
  obtain ⟨system, moved, rfl⟩ := Option.map_eq_some_iff.mp stepped
  have advanced := step_advanced logged.sound.slots moved
  have version := advanced.committedVersion
  cases commits : log.system.commits action with
  | some wave =>
    rw [commits] at version
    obtain ⟨next, under, hash, nodeCount, outcome, own⟩ := advanced.committed wave commits
    exact .inr ⟨next, under, ⟨hash, nodeCount, outcome⟩, own.trans version.symm, sound.acknowledgedBy under outcome⟩
  | none =>
    rw [commits] at version
    rcases before with ⟨none, zero⟩ | ⟨wave, under, ⟨hash, nodeCount, outcome⟩, own, -⟩
    · refine .inl ⟨?_, version.trans zero⟩
      simp [none]
    · -- A wave that has committed has nobody left to push to, and keeps its version.
      obtain ⟨i, inRange, rfl⟩ := List.mem_iff_getElem.mp under
      obtain ⟨next, found, onward⟩ := advanced.onward i _ (List.getElem?_eq_getElem inRange)
      have pushed := ((logged.sound.waves _ under).committed hash nodeCount outcome).1
      have still := onward.outcome _ outcome
      exact .inr ⟨next, List.mem_of_getElem? found, ⟨hash, nodeCount, still⟩,
        (onward.pushed pushed).trans (own.trans version.symm), sound.acknowledgedBy (List.mem_of_getElem? found) still⟩

theorem along_keeps_iff {texts : RenderTexts} {log after : CommitLog} {actions : List Action}
    (ascending : log.Ascending) (executed : Runs.exec (step texts) log actions = some after) :
    Runs.Along (step texts) (Keeps texts) log actions ↔ Runs.Along (step texts) NotOvertaken log actions :=
  Runs.along_iff_along _ (fun _ _ _ ascending keeps stepped => ascending_step ascending keeps stepped)
    (fun _ _ _ ascending stepped => keeps_iff_notOvertaken ascending stepped) ascending executed

/-- Over every interleaving of overlapping waves, raw pushes, heals and answers: in every state the committed version is
    that of a wave all of whose nodes have acknowledged, or zero before the first; and no step lowers it if and only if
    no wave commits after one of a higher version has committed since it began. -/
theorem committed_version_iff (texts : RenderTexts) (applied : Rendered) (source : ResolvedRepo) (plan : WavePlan)
    (actions : List Action) (log : CommitLog)
    (executed : Runs.exec (step texts) (init applied source plan) actions = some log) :
    log.FromWave ∧
      (Runs.Along (step texts) (Keeps texts) (init applied source plan) actions ↔
        Runs.Along (step texts) NotOvertaken (init applied source plan) actions) := by
  have logged := logged_init applied source plan
  constructor
  · have kept : Runs.Preserves (step texts) fun log => log.Logged ∧ log.FromWave := by
      intro log action after held stepped
      exact ⟨logged_step texts _ _ _ held.1 stepped, fromWave_step held.1 stepped held.2⟩
    exact (Runs.exec_preserves kept ⟨logged, .inl ⟨rfl, rfl⟩⟩ executed).2
  · exact along_keeps_iff ⟨logged, .nil⟩ executed

def applied : Rendered := ⟨[], "h1", "c1"⟩

def noConfig : RenderTexts := ⟨fun _ _ => .error "no config", id⟩

/-- A wave over one node and another over a second one, which was pushed something else before, so that it gets the
    second version. Both push, and both are acknowledged. -/
def overlap : List Action :=
  [.open_ "n1", .open_ "n2", .single "n2" ⟨[], "h0", "c0"⟩,
    .wave .single ((∅ : Std.TreeMap String Labels).insert "n1" ∅) 0,
    .wave .single ((∅ : Std.TreeMap String Labels).insert "n2" ∅) 0, .move 0 (.render none), .move 0 .mint,
    .move 0 (.push true), .move 1 (.render none), .move 1 .mint, .move 1 (.push true), .answer "n1" 1 (.ack "h1"),
    .answer "n2" 2 (.ack "h1"), .move 0 .take, .move 1 .take]

def reached (actions : List Action) : CommitLog :=
  (Runs.exec (step noConfig) (init applied ⟨[], "c1"⟩ .single) actions).getD (init applied ⟨[], "c1"⟩ .single)

/-- The wave of the lower version commits first. -/
theorem lower_first_keeps :
    (reached (overlap ++ [.move 0 .conclude, .move 1 .conclude])).committed = [1, 2] ∧
      Runs.Along (step noConfig) (Keeps noConfig) (init applied ⟨[], "c1"⟩ .single)
        (overlap ++ [.move 0 .conclude, .move 1 .conclude]) := by
  refine ⟨by decide, ?_⟩
  have executed := Runs.exec_eq_getD (step noConfig) (init applied ⟨[], "c1"⟩ .single)
    (overlap ++ [.move 0 .conclude, .move 1 .conclude]) (by decide) (init applied ⟨[], "c1"⟩ .single)
  exact (committed_version_iff noConfig applied ⟨[], "c1"⟩ .single _ _ executed).2.mpr (by decide)

/-- The wave of the lower version commits last, and takes the committed version from two back to one. -/
theorem lower_last_lowers :
    ¬ ∀ (texts : RenderTexts) (applied : Rendered) (source : ResolvedRepo) (plan : WavePlan) (actions : List Action)
      (log : CommitLog), Runs.exec (step texts) (init applied source plan) actions = some log →
        Runs.Along (step texts) (Keeps texts) (init applied source plan) actions := by
  intro claimed
  have executed := Runs.exec_eq_getD (step noConfig) (init applied ⟨[], "c1"⟩ .single)
    (overlap ++ [.move 1 .conclude, .move 0 .conclude]) (by decide) (init applied ⟨[], "c1"⟩ .single)
  have keeps := claimed noConfig applied ⟨[], "c1"⟩ .single _ _ executed
  have notOvertaken := (along_keeps_iff ⟨logged_init _ _ _, .nil⟩ executed).mp keeps
  revert notOvertaken
  decide

end CommitLog

end SmallGateway.Correlation
