import SmallGateway.Correlation

/-!
What the control plane puts on the streams of its nodes (`push_and_await` in `gatewayctl/src/server.rs`,
`run_wave_nodes` in `gatewayctl/src/rollout.rs`). A push is a render that is held somewhere, for a wave or for a single
push, and has the version that was minted for its node and its hash (`dispatched_minted`). While every acknowledgement
is of the hash that its version was minted for, no wave halts for a wrong one (`noWrongHash_step`).
-/

namespace SmallGateway

namespace Correlation

/-- The snapshot that an action puts on a stream, if the stream takes it. -/
def dispatched (s : Correlation) : Action → Option RenderedSnapshot
  | .move i (.push true) =>
    match (s.waves[i]?).map fun wave => (wave.remaining, wave.minted) with
    | some (nodeId :: _, some (rendered, version)) =>
      if s.sessions.contains nodeId then some (rendered.toSnapshot nodeId version) else none
    | _ => none
  | .singleMove i (.push true) =>
    match s.singles[i]? with
    | some (.minted nodeId rendered version) =>
      if s.sessions.contains nodeId then some (rendered.toSnapshot nodeId version) else none
    | _ => none
  | _ => none

/-- The render that an action comes with. -/
def Action.brings : Action → Option Rendered
  | .apply next _ _ => some next
  | .raw rendered => some rendered
  | .single _ rendered => some rendered
  | _ => none

/-- The action is an answer of a node. -/
def Action.isAnswer : Action → Bool
  | .answer _ _ _ => true
  | _ => false

/-! ### The renders of a control plane -/

/-- The renders that a fleet gives out. -/
structure Gives (P : Rendered → Prop) (fleet : Fleet) : Prop where
  applied : P fleet.applied
  cached : ∀ (key : String) rendered, fleet.renderCache[key]? = some rendered → P rendered

/-- The renders that a wave has yet to push. -/
structure Wave.Carries (P : Rendered → Prop) (wave : Wave) : Prop where
  raw : ∀ rendered, wave.raw = some rendered → P rendered
  rendered : ∀ rendered, wave.rendered = some rendered → P rendered
  minted : ∀ rendered version, wave.minted = some (rendered, version) → P rendered

/-- Every render that the control plane holds has the property, and a single push that has a version carries it for the
    hash that it was minted for. -/
structure Holds (P : Rendered → Prop) (s : Correlation) : Prop where
  fleet : Gives P s.fleet
  waves : ∀ wave ∈ s.waves, wave.Carries P
  singles : ∀ nodeId rendered version, .minted nodeId rendered version ∈ s.singles →
    P rendered ∧ (nodeId, version, rendered.renderHash) ∈ s.mints

/-- The later state has the same tasks and answers, and knows the mints of the earlier one. -/
structure Beside (s t : Correlation) : Prop where
  waves : t.waves = s.waves
  singles : t.singles = s.singles
  mints : s.mints ⊆ t.mints
  answers : t.answers = s.answers

theorem Beside.of_same {s t : Correlation} (waves : t.waves = s.waves) (singles : t.singles = s.singles)
    (mints : t.mints = s.mints) (answers : t.answers = s.answers) : s.Beside t :=
  ⟨waves, singles, mints ▸ List.Subset.refl _, answers⟩

theorem mint_beside (s : Correlation) (nodeId : String) (rendered : Rendered) :
    s.Beside (s.mint nodeId rendered).2 := ⟨rfl, rfl, List.subset_append_left _ _, rfl⟩

theorem pushAndAwait_beside (s : Correlation) (nodeId : String) (version : Nat) (sends : Bool) :
    s.Beside (s.pushAndAwait nodeId version sends).2 ∧ (s.pushAndAwait nodeId version sends).2.fleet = s.fleet := by
  unfold pushAndAwait
  cases s.sessions[nodeId]? with
  | none => exact ⟨.of_same rfl rfl rfl rfl, rfl⟩
  | some session => cases sends <;> exact ⟨.of_same rfl rfl rfl rfl, rfl⟩

theorem clearPending_beside (s : Correlation) (nodeId : String) (pushId : Nat) :
    s.Beside (s.clearPending nodeId pushId) ∧ (s.clearPending nodeId pushId).fleet = s.fleet := by
  unfold clearPending
  cases s.sessions[nodeId]? with
  | none => exact ⟨.of_same rfl rfl rfl rfl, rfl⟩
  | some session => exact ⟨.of_same rfl rfl rfl rfl, rfl⟩

/-- An answer goes to the waiters alone. -/
theorem deliver_beside (s : Correlation) (nodeId : String) (version : Nat) (answer : Answer) :
    (s.deliver nodeId version answer).singles = s.singles ∧ s.Untouched (s.deliver nodeId version answer) ∧
      (s.deliver nodeId version answer).answers = s.answers ++ [(nodeId, version, answer.result)] := by
  have each : ∀ (pushIds : List Nat) (u : Correlation),
      (pushIds.foldl (deliverTo nodeId answer.result) u).singles = u.singles ∧
        u.Untouched (pushIds.foldl (deliverTo nodeId answer.result) u) ∧
        (pushIds.foldl (deliverTo nodeId answer.result) u).answers = u.answers := by
    intro pushIds
    induction pushIds with
    | nil => exact fun u => ⟨rfl, ⟨rfl, rfl, rfl⟩, rfl⟩
    | cons pushId rest ih =>
      intro u
      have first : (deliverTo nodeId answer.result u pushId).singles = u.singles := by
        unfold deliverTo
        cases u.sessions[nodeId]? with
        | none => rfl
        | some session => cases waits : session.pending[pushId]? <;> simp only [waits]
      obtain ⟨frame, answers, -⟩ := deliverTo_frame u nodeId answer.result pushId
      obtain ⟨singles, untouched, same⟩ := ih (deliverTo nodeId answer.result u pushId)
      exact ⟨singles.trans first, ⟨untouched.fleet.trans frame.fleet, untouched.waves.trans frame.waves,
        untouched.mints.trans frame.mints⟩, same.trans answers⟩
  obtain ⟨singles, untouched, answers⟩ := each (s.matched nodeId version)
    { s with answers := s.answers ++ [(nodeId, version, answer.result)] }
  exact ⟨singles, ⟨untouched.fleet, untouched.waves, untouched.mints⟩, answers⟩

section

variable {P : Rendered → Prop} {texts : RenderTexts} {s t : Correlation}

theorem Gives.desiredFor (finalized : ∀ resolved flat, P (texts.finalize resolved flat)) {fleet : Fleet}
    (gives : Gives P fleet) (labels : Labels) :
    P (fleet.desiredFor texts labels).1 ∧ Gives P (fleet.desiredFor texts labels).2 := by
  have fresh : ∀ rendered, P rendered → P rendered ∧
      Gives P { fleet with renderCache := fleet.renderCache.insert (canonicalLabels labels) rendered } := by
    intro rendered given
    refine ⟨given, gives.applied, fun key other found => ?_⟩
    rw [Std.TreeMap.getElem?_insert] at found
    split at found
    · rw [← Option.some.inj found]
      exact given
    · exact gives.cached key other found
  unfold Fleet.desiredFor
  cases hit : fleet.renderCache[canonicalLabels labels]? with
  | some rendered =>
    simp only [hit]
    exact ⟨gives.cached _ _ hit, gives⟩
  | none =>
    simp only [hit]
    refine fresh _ ?_
    cases fleet.desired with
    | none => exact gives.applied
    | some inputs =>
      dsimp only
      unfold RenderTexts.renderResolvedForNode
      cases texts.flatFor inputs.resolved.files (some labels) with
      | error e => exact gives.applied
      | ok flat => exact finalized inputs.resolved flat

/-- A turn of a wave takes its renders from what is held. -/
theorem waveTurn_carries (finalized : ∀ resolved flat, P (texts.finalize resolved flat)) (gives : Gives P s.fleet)
    {wave next : Wave} {move : WaveMove} (carries : wave.Carries P)
    (moved : waveTurn texts s wave move = some (t, next)) : next.Carries P ∧ Gives P t.fleet ∧ s.Beside t := by
  have same : s.Beside s := .of_same rfl rfl rfl rfl
  cases waveTurn_taken moved with
  | raw labels isRaw =>
    refine ⟨⟨carries.raw, fun rendered given => ?_, carries.minted⟩, gives, same⟩
    rw [← Option.some.inj given]
    exact carries.raw _ isRaw
  | applied notRaw =>
    refine ⟨⟨carries.raw, fun rendered given => ?_, carries.minted⟩, gives, same⟩
    rw [← Option.some.inj given]
    exact gives.applied
  | desired labels notRaw =>
    obtain ⟨desired, given⟩ := gives.desiredFor finalized labels
    refine ⟨⟨carries.raw, fun rendered found => ?_, carries.minted⟩, given, .of_same rfl rfl rfl rfl⟩
    rw [← Option.some.inj found]
    exact desired
  | @mint nodeId _ rendered first computed =>
    refine ⟨⟨carries.raw, fun rendered given => (by cases given), fun rendered version given => ?_⟩,
      ⟨gives.applied, gives.cached⟩, mint_beside s nodeId rendered⟩
    rw [← (Prod.mk.inj (Option.some.inj given)).1]
    exact carries.rendered _ computed
  | @push sends nodeId _ _ version first given =>
    obtain ⟨beside, fleet⟩ := pushAndAwait_beside s nodeId version sends
    exact ⟨⟨carries.raw, carries.rendered, fun rendered version given => (by cases given)⟩, fleet ▸ gives, beside⟩
  | silent awaits => exact ⟨⟨carries.raw, carries.rendered, carries.minted⟩, gives, same⟩
  | take awaits handle received => exact ⟨⟨carries.raw, carries.rendered, carries.minted⟩, gives, same⟩
  | giveUp => exact ⟨⟨carries.raw, carries.rendered, carries.minted⟩, gives, same⟩
  | @clear nodeId _ _ pushId _ awaits =>
    obtain ⟨beside, fleet⟩ := clearPending_beside s nodeId pushId
    exact ⟨⟨carries.raw, carries.rendered, carries.minted⟩, fleet ▸ gives, beside⟩
  | conclude running complete answered =>
    obtain ⟨cache, applied, -⟩ := s.fleet.concludeWaveMulti_sameDesired wave.outcomeHash wave.expected wave.version
      wave.results
    refine ⟨⟨carries.raw, carries.rendered, carries.minted⟩, ⟨applied ▸ gives.applied, fun key rendered found => ?_⟩,
      .of_same rfl rfl rfl rfl⟩
    exact gives.cached key rendered (cache ▸ found)

theorem singleTurn_beside {single next : Single} {move : SingleMove}
    (moved : singleTurn s single move = some (t, next)) :
    s.Beside t ∧ t.fleet = s.fleet ∧ ∀ nodeId rendered version, next ≠ .minted nodeId rendered version := by
  unfold singleTurn at moved
  split at moved
  · rename_i nodeId _ version sends
    obtain ⟨rfl, rfl⟩ := Prod.mk.inj (Option.some.inj moved)
    obtain ⟨beside, fleet⟩ := pushAndAwait_beside s nodeId version sends
    exact ⟨beside, fleet, fun _ _ _ same => by cases same⟩
  · obtain ⟨rfl, rfl⟩ := Prod.mk.inj (Option.some.inj moved)
    exact ⟨.of_same rfl rfl rfl rfl, rfl, fun _ _ _ same => by cases same⟩
  · rename_i nodeId pushId _
    obtain ⟨rfl, rfl⟩ := Prod.mk.inj (Option.some.inj moved)
    obtain ⟨beside, fleet⟩ := clearPending_beside s nodeId pushId
    exact ⟨beside, fleet, fun _ _ _ same => by cases same⟩
  · cases moved

/-- A step that comes with renders of the property leaves the control plane with such renders alone, knows the mints
    that were known, and adds an answer only when it is one. -/
theorem holds_step (finalized : ∀ resolved flat, P (texts.finalize resolved flat)) (holds : s.Holds P)
    {action : Action} (brings : ∀ rendered ∈ action.brings, P rendered) (stepped : step texts s action = some t) :
    t.Holds P ∧ s.mints ⊆ t.mints ∧ (action.isAnswer = false → t.answers = s.answers) := by
  have begun : ∀ raw nodeIds, (∀ rendered ∈ raw, P rendered) → (s.beginWave raw nodeIds).Holds P := by
    intro raw nodeIds given
    refine ⟨holds.fleet, fun wave under => ?_, holds.singles⟩
    rcases List.mem_append.mp under with before | new
    · exact holds.waves wave before
    · rw [List.mem_singleton.mp new]
      exact ⟨given, fun _ none => (by cases none), fun _ _ none => (by cases none)⟩
  cases action with
  | open_ nodeId =>
    obtain rfl := Option.some.inj stepped
    exact ⟨⟨holds.fleet, holds.waves, holds.singles⟩, List.Subset.refl _, fun _ => rfl⟩
  | close nodeId =>
    obtain rfl := Option.some.inj stepped
    exact ⟨⟨holds.fleet, holds.waves, holds.singles⟩, List.Subset.refl _, fun _ => rfl⟩
  | answer nodeId version answer =>
    obtain rfl := Option.some.inj stepped
    obtain ⟨singles, untouched, -⟩ := deliver_beside s nodeId version answer
    refine ⟨⟨untouched.fleet ▸ holds.fleet, fun wave under => holds.waves wave (untouched.waves ▸ under), ?_⟩,
      untouched.mints ▸ List.Subset.refl _, fun none => (by cases none)⟩
    intro other rendered version made
    rw [singles] at made
    rw [untouched.mints]
    exact holds.singles other rendered version made
  | apply next resolved plan =>
    obtain rfl := Option.some.inj stepped
    refine ⟨⟨⟨brings next rfl, fun key rendered found => ?_⟩, holds.waves, holds.singles⟩, List.Subset.refl _,
      fun _ => rfl⟩
    simp [Fleet.setAppliedFromSource] at found
  | wave plan connected place =>
    obtain ⟨wave, placed, rfl⟩ := Option.map_eq_some_iff.mp stepped
    exact ⟨begun none _ fun _ none => (by cases none), List.Subset.refl _, fun _ => rfl⟩
  | raw rendered =>
    obtain rfl := Option.some.inj stepped
    exact ⟨begun (some rendered) _ brings, List.Subset.refl _, fun _ => rfl⟩
  | move i move =>
    obtain ⟨wave, u, next, under, moved, rfl⟩ := step_move stepped
    obtain ⟨carries, gives, beside⟩ :=
      waveTurn_carries finalized holds.fleet (holds.waves wave (List.mem_of_getElem? under)) moved
    refine ⟨⟨gives, fun other among => ?_, fun nodeId rendered version made => ?_⟩, beside.mints,
      fun _ => beside.answers⟩
    · rcases List.mem_or_eq_of_mem_set among with before | rfl
      · exact holds.waves other (beside.waves ▸ before)
      · exact carries
    · obtain ⟨given, known⟩ := holds.singles nodeId rendered version (beside.singles ▸ made)
      exact ⟨given, beside.mints known⟩
  | single nodeId rendered =>
    obtain rfl := Option.some.inj stepped
    refine ⟨⟨⟨holds.fleet.applied, holds.fleet.cached⟩, holds.waves, fun other render version made => ?_⟩,
      List.subset_append_left _ _, fun _ => rfl⟩
    rcases List.mem_append.mp made with before | new
    · obtain ⟨given, known⟩ := holds.singles other render version before
      exact ⟨given, List.mem_append_left _ known⟩
    · obtain ⟨rfl, rfl, rfl⟩ := Single.minted.inj (List.mem_singleton.mp new)
      exact ⟨brings _ rfl, List.mem_append_right _ List.mem_cons_self⟩
  | singleMove i move =>
    obtain ⟨single, u, next, under, moved, rfl⟩ := step_singleMove stepped
    obtain ⟨beside, fleet, ended⟩ := singleTurn_beside moved
    refine ⟨⟨fleet ▸ holds.fleet, ?_, fun nodeId rendered version made => ?_⟩, beside.mints, fun _ => beside.answers⟩
    · intro wave inside
      exact holds.waves wave (beside.waves ▸ inside)
    · rcases List.mem_or_eq_of_mem_set made with before | same
      · obtain ⟨given, known⟩ := holds.singles nodeId rendered version (beside.singles ▸ before)
        exact ⟨given, beside.mints known⟩
      · exact absurd same.symm (ended nodeId rendered version)

/-- What is put on a stream is a render that is held, under a version that was minted for its node and its hash. -/
theorem dispatched_minted (sound : s.Sound) (holds : s.Holds P) {action : Action} {snap : RenderedSnapshot}
    (sends : s.dispatched action = some snap) :
    (snap.nodeId, snap.fleetVersion, snap.renderHash) ∈ s.mints ∧
      ∃ rendered, P rendered ∧ snap.config = rendered.configBytes ∧ snap.renderHash = rendered.renderHash := by
  unfold dispatched at sends
  split at sends
  · rename_i i
    cases under : s.waves[i]? with
    | none =>
      rw [under] at sends
      cases sends
    | some wave =>
      rw [under, Option.map_some] at sends
      split at sends
      · rename_i nodeId remaining rendered version same
        obtain ⟨first, given⟩ := Prod.mk.inj (Option.some.inj same)
        obtain ⟨-, sent⟩ := Option.ite_none_right_eq_some.mp sends
        obtain rfl := Option.some.inj sent
        have among := List.mem_of_getElem? under
        exact ⟨(sound.waves wave among).minted nodeId _ rendered version first given, rendered,
          (holds.waves wave among).minted rendered version given, rfl, rfl⟩
      · cases sends
  · rename_i i
    cases under : s.singles[i]? with
    | none =>
      rw [under] at sends
      cases sends
    | some single =>
      rw [under] at sends
      split at sends
      · rename_i nodeId rendered version same
        obtain rfl := Option.some.inj same
        obtain ⟨-, sent⟩ := Option.ite_none_right_eq_some.mp sends
        obtain rfl := Option.some.inj sent
        obtain ⟨given, known⟩ := holds.singles nodeId rendered version (List.mem_of_getElem? under)
        exact ⟨known, rendered, given, rfl, rfl⟩
      · cases sends
  · cases sends

/-! ### Halts for a wrong hash -/

/-- The wave did not halt because a node acknowledged another hash than it was pushed. -/
def Wave.NoWrongHash (wave : Wave) : Prop :=
  ∀ hash divergences, wave.outcome = some (.halted hash divergences) → ∀ divergence ∈ divergences,
    ∀ version want got, divergence.kind ≠ .wrongHash version want got

/-- A wave halts for a wrong hash only when a node acknowledged another one than is wanted of it. -/
theorem concludeWaveMulti_wrongHash {fleet : Fleet} {outcomeHash hash : String} {expected : List (String × String)}
    {version : Nat} {results : List (String × AckResult)} {divergences : List Divergence}
    (halted : (fleet.concludeWaveMulti outcomeHash expected version results).1 = .halted hash divergences)
    {divergence : Divergence} (inside : divergence ∈ divergences) {at_ : Nat} {want got : String}
    (kind : divergence.kind = .wrongHash at_ want got) :
    ∃ nodeId, (nodeId, .acked got) ∈ results ∧
      got ≠ ((expected.find? fun entry => entry.1 == nodeId).map (·.2)).getD outcomeHash := by
  unfold Fleet.concludeWaveMulti at halted
  split at halted
  · cases halted
  · dsimp only at halted
    split at halted
    · cases halted
    · obtain ⟨rfl, rfl⟩ := WaveOutcome.halted.inj halted
      obtain ⟨⟨nodeId, result⟩, answered, diverges⟩ := List.mem_filterMap.mp inside
      refine ⟨nodeId, ?_⟩
      cases result with
      | silent =>
        obtain rfl := Option.some.inj diverges
        cases kind
      | nacked reason =>
        obtain rfl := Option.some.inj diverges
        cases kind
      | acked hash =>
        obtain ⟨other, same⟩ := Option.ite_none_left_eq_some.mp diverges
        obtain rfl := Option.some.inj same
        obtain ⟨-, -, rfl⟩ := DivergenceKind.wrongHash.inj kind
        exact ⟨answered, other⟩

/-- Where every acknowledgement is of the hash that its version was minted for, no wave halts for a wrong hash. -/
theorem Wave.Sound.noWrongHash {wave : Wave} (own : wave.Sound s) (minted : Minted s.fleet s.mints)
    (acked : ∀ nodeId version hash, (nodeId, version, .acked hash) ∈ s.answers → (nodeId, version, hash) ∈ s.mints)
    {outcome : WaveOutcome}
    (concluded : (s.fleet.concludeWaveMulti wave.outcomeHash wave.expected wave.version wave.results).1 = outcome) :
    Wave.NoWrongHash { wave with outcome := some outcome } := by
  intro hash divergences halted divergence inside version want got kind
  rw [Option.some.inj halted] at concluded
  obtain ⟨nodeId, answered, differs⟩ := concludeWaveMulti_wrongHash concluded inside kind
  obtain ⟨pushed, taken, rfl, heard⟩ := Fallible.exists_of_forall₂ own.heard.flip (nodeId, .acked got) answered
  have sent := List.mem_of_mem_take taken
  obtain ⟨expects, only⟩ := own.expected sent answered
  rcases heard with silent | found
  · cases silent
  · refine differs ?_
    rw [Fleet.wanted expects only]
    exact minted.unique _ _ got pushed.hash (acked _ _ got found) (own.carried pushed sent)

/-- What a turn makes of the outcome of its wave. -/
theorem waveTurn_outcome {wave next : Wave} {move : WaveMove} (moved : waveTurn texts s wave move = some (t, next)) :
    next.outcome = wave.outcome ∨ ∃ outcome, next = { wave with outcome := some outcome } ∧
      (s.fleet.concludeWaveMulti wave.outcomeHash wave.expected wave.version wave.results).1 = outcome := by
  cases waveTurn_taken moved with
  | conclude running complete answered => exact .inr ⟨_, rfl, rfl⟩
  | _ => exact .inl rfl

theorem noWrongHash_step (sound : s.Sound)
    (acked : ∀ nodeId version hash, (nodeId, version, .acked hash) ∈ s.answers → (nodeId, version, hash) ∈ s.mints)
    (trusts : ∀ wave ∈ s.waves, wave.NoWrongHash) {action : Action} (stepped : step texts s action = some t) :
    ∀ wave ∈ t.waves, wave.NoWrongHash := by
  have begun : ∀ raw nodeIds, ∀ wave ∈ (s.beginWave raw nodeIds).waves, wave.NoWrongHash := by
    intro raw nodeIds wave under
    rcases List.mem_append.mp under with before | new
    · exact trusts wave before
    · rw [List.mem_singleton.mp new]
      exact fun hash divergences halted => by cases halted
  cases action with
  | open_ nodeId => exact Option.some.inj stepped ▸ trusts
  | close nodeId => exact Option.some.inj stepped ▸ trusts
  | apply next resolved plan => exact Option.some.inj stepped ▸ trusts
  | single nodeId rendered => exact Option.some.inj stepped ▸ trusts
  | raw rendered => exact Option.some.inj stepped ▸ begun _ _
  | answer nodeId version answer =>
    obtain rfl := Option.some.inj stepped
    rw [(deliver_beside s nodeId version answer).2.1.waves]
    exact trusts
  | wave plan connected place =>
    obtain ⟨wave, placed, rfl⟩ := Option.map_eq_some_iff.mp stepped
    exact begun _ _
  | singleMove i move =>
    obtain ⟨single, u, next, under, moved, rfl⟩ := step_singleMove stepped
    exact fun wave inside => trusts wave ((singleTurn_beside moved).1.waves ▸ inside)
  | move i move =>
    obtain ⟨wave, u, next, under, moved, rfl⟩ := step_move stepped
    have among := List.mem_of_getElem? under
    intro other inside
    rcases List.mem_or_eq_of_mem_set inside with before | rfl
    · rw [(waveTurn_keeps sound.slots sound.minted (sound.waves wave among) moved).1.waves] at before
      exact trusts other before
    · rcases waveTurn_outcome moved with same | ⟨outcome, rfl, concluded⟩
      · intro hash divergences halted
        exact trusts wave among hash divergences (same ▸ halted)
      · exact (sound.waves wave among).noWrongHash sound.minted acked concluded

end

end Correlation

end SmallGateway
