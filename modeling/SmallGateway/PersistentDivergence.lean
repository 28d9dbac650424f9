import SmallGateway.Containment

/-!
When the reconciler leaves a node alone for good (`classify` and `tick` in `gatewayctl/src/reconcile.rs`, `record_ack`
and `record_nack` in `gatewayctl/src/store.rs`). A node counts as persistently divergent once it has refused three times
in a row; which renders it refused is not looked at, and a change of what is desired does not begin the count anew. So
the count is about the render that is desired now exactly when a third refusal in a row always comes for the render that
is desired and that the two before were for, and what is desired changes only before there are three
(`divergence_about_desired_iff`).
-/

namespace SmallGateway

/-- An answer of a node to a push, with the render that it is about. -/
inductive NodeAnswer
  | ack (hash : String)
  | nack (hash : String)
  deriving DecidableEq

def NodeAnswer.refuses : NodeAnswer → Bool
  | .ack _ => false
  | .nack _ => true

/-- What the store holds of the nodes, the hash that one of them was pushed last, the hash that is desired for it, and
    its answers, the newest first. -/
structure NodeHistory where
  store : RuntimeStore
  delivered : Option String
  desired : String
  answers : List NodeAnswer

namespace NodeHistory

/-- What happens around the node. It comes and goes, is pushed a render (the desired one or another), answers, reports
    what it runs, and another render becomes desired for it. -/
inductive Action
  | connect (labels : Labels)
  | disconnect
  | push (hash : String)
  | ack (version : Nat) (hash : String)
  | nack (version : Nat) (hash reason : String)
  | status (hash : String)
  | desire (hash : String)

variable (nodeId : String)

/-- The node has just joined. -/
def start (labels : Labels) (desired : String) : NodeHistory :=
  ⟨RuntimeStore.new.connect nodeId labels, none, desired, []⟩

def step (s : NodeHistory) : Action → Option NodeHistory
  | .connect labels => some { s with store := s.store.connect nodeId labels }
  | .disconnect => some { s with store := s.store.disconnect nodeId }
  | .push hash => some { s with delivered := some hash }
  | .ack version hash =>
    some { s with store := s.store.recordAck nodeId version hash, answers := .ack hash :: s.answers }
  | .nack version hash reason =>
    some { s with store := s.store.recordNack nodeId version reason, answers := .nack hash :: s.answers }
  | .status hash => some { s with store := s.store.recordStatus nodeId hash }
  | .desire hash => some { s with desired := hash }

/-- How many refusals there are since the last acknowledgement. -/
def streak (s : NodeHistory) : Nat := (s.answers.takeWhile (·.refuses)).length

/-- The last answers, as many as given, were refusals of the render. -/
def LastRefused (s : NodeHistory) (count : Nat) (hash : String) : Prop :=
  List.replicate count (.nack hash) <+: s.answers

/-- The node counts as persistently divergent only after it has refused, three times at least, what is desired now. -/
def AboutDesired (s : NodeHistory) : Prop :=
  ∀ node now nacks, s.store.nodes[nodeId]? = some node →
    classify (ControlPlane.withDelivered node s.delivered) s.desired now = .persistentlyDivergent nacks →
      s.LastRefused persistentNackThreshold s.desired

/-- A refusal makes three in a row only when all of them are of the desired render, and what is desired changes only
    before there are three. -/
def CountsDesired (s : NodeHistory) : Action → Prop
  | .nack _ hash _ => s.streak < 2 ∨ hash = s.desired ∧ s.LastRefused 2 s.desired
  | .desire hash => hash = s.desired ∨ s.streak < persistentNackThreshold
  | _ => True

instance (s : NodeHistory) (count : Nat) (hash : String) : Decidable (s.LastRefused count hash) :=
  inferInstanceAs (Decidable (_ <+: _))

instance (s : NodeHistory) (action : Action) : Decidable (s.CountsDesired action) :=
  match action with
  | .nack _ hash _ => inferInstanceAs (Decidable (s.streak < 2 ∨ hash = s.desired ∧ s.LastRefused 2 s.desired))
  | .desire hash => inferInstanceAs (Decidable (hash = s.desired ∨ s.streak < persistentNackThreshold))
  | .connect _ | .disconnect | .push _ | .ack _ _ | .status _ => isTrue trivial

/-- The counter of the store is the streak, and the node is outside of break-glass. -/
structure Counted (s : NodeHistory) : Prop where
  known : ∃ node, s.store.nodes[nodeId]? = some node ∧ node.consecutiveNacks = min s.streak (2 ^ 32 - 1) ∧
    node.breakGlassUntil = none

theorem counted_start (labels : Labels) (desired : String) : Counted nodeId (start nodeId labels desired) := by
  refine ⟨.new labels, ?_, rfl, rfl⟩
  simp [start, RuntimeStore.connect, RuntimeStore.new]

theorem update_known {store : RuntimeStore} {node : NodeState} (known : store.nodes[nodeId]? = some node)
    (change : NodeState → NodeState) : (store.update nodeId change).nodes[nodeId]? = some (change node) := by
  rw [RuntimeStore.update_same, known, Option.map_some]

theorem streak_nack (s : NodeHistory) (store : RuntimeStore) (hash : String) :
    streak { s with store, answers := .nack hash :: s.answers } = s.streak + 1 := rfl

theorem counted_step : Runs.Preserves (step nodeId) (Counted nodeId) := by
  rintro s action t ⟨node, known, count, outside⟩ stepped
  cases action with
  | connect labels =>
    obtain rfl := Option.some.inj stepped
    refine ⟨{ node with labels, connected := true }, ?_, count, outside⟩
    simp [RuntimeStore.connect, known]
  | disconnect =>
    obtain rfl := Option.some.inj stepped
    exact ⟨_, update_known nodeId known _, count, outside⟩
  | push hash =>
    obtain rfl := Option.some.inj stepped
    exact ⟨node, known, count, outside⟩
  | ack version hash =>
    obtain rfl := Option.some.inj stepped
    exact ⟨_, update_known nodeId known _, rfl, outside⟩
  | nack version hash reason =>
    obtain rfl := Option.some.inj stepped
    refine ⟨_, update_known nodeId known _, ?_, outside⟩
    dsimp only
    rw [count, streak_nack]
    omega
  | status hash =>
    obtain rfl := Option.some.inj stepped
    exact ⟨_, update_known nodeId known _, count, outside⟩
  | desire hash =>
    obtain rfl := Option.some.inj stepped
    exact ⟨node, known, count, outside⟩

/-- Outside of break-glass a node counts as persistently divergent exactly when it has refused three times in a row. -/
theorem classify_divergent_iff {node : NodeState} (outside : node.breakGlassUntil = none) (desired : String)
    (now : Nat) :
    (∃ nacks, classify node desired now = .persistentlyDivergent nacks) ↔
      persistentNackThreshold ≤ node.consecutiveNacks := by
  unfold classify NodeState.breakGlassActive
  rw [outside, Option.any_none, if_neg Bool.false_ne_true]
  split
  · rename_i refused
    exact iff_of_true ⟨_, rfl⟩ refused
  · rename_i few
    refine iff_of_false ?_ few
    rintro ⟨nacks, divergent⟩
    split at divergent
    · cases divergent
    · split at divergent
      · cases divergent
      · split at divergent
        · cases divergent
        · split at divergent
          · cases divergent
          · cases divergent

theorem classify_stale {node : NodeState} (outside : node.breakGlassUntil = none) {desired : String}
    (few : node.consecutiveNacks < persistentNackThreshold) (undelivered : node.lastAckedHash ≠ some desired)
    (now : Nat) : classify node desired now = .deliveryStale := by
  unfold classify NodeState.breakGlassActive
  rw [outside, Option.any_none, if_neg Bool.false_ne_true, if_neg (Nat.not_le.mpr few)]
  cases acked : node.lastAckedHash with
  | none => rfl
  | some delivered =>
    have differs : delivered ≠ desired := fun same => undelivered (same ▸ acked)
    exact if_pos differs

theorem withDelivered_frame (node : NodeState) (delivered : Option String) :
    (ControlPlane.withDelivered node delivered).consecutiveNacks = node.consecutiveNacks ∧
      (ControlPlane.withDelivered node delivered).breakGlassUntil = node.breakGlassUntil := by
  unfold ControlPlane.withDelivered
  split <;> exact ⟨rfl, rfl⟩

theorem aboutDesired_iff {s : NodeHistory} (counted : Counted nodeId s) :
    AboutDesired nodeId s ↔
      (persistentNackThreshold ≤ s.streak → s.LastRefused persistentNackThreshold s.desired) := by
  obtain ⟨node, known, count, outside⟩ := counted
  obtain ⟨nacks, glass⟩ := withDelivered_frame node s.delivered
  have divergent := classify_divergent_iff (glass.trans outside) s.desired
  have reaches : persistentNackThreshold ≤ node.consecutiveNacks ↔ persistentNackThreshold ≤ s.streak := by
    rw [count, persistentNackThreshold]
    omega
  constructor
  · intro about long
    obtain ⟨nacks, found⟩ := (divergent 0).mpr (by rwa [nacks, reaches])
    exact about node 0 nacks known found
  · intro refused other now count others found
    obtain rfl := Option.some.inj (known.symm.trans others)
    have long := (divergent now).mp ⟨count, found⟩
    rw [nacks, reaches] at long
    exact refused long

theorem lastRefused_cons (s : NodeHistory) (store : RuntimeStore) (count : Nat) (hash desired : String) :
    LastRefused { s with store, answers := .nack hash :: s.answers } (count + 1) desired ↔
      hash = desired ∧ s.LastRefused count desired := by
  unfold LastRefused
  rw [List.replicate_succ, List.cons_prefix_cons, NodeAnswer.nack.injEq, eq_comm]

theorem LastRefused.unique {s : NodeHistory} {count : Nat} {hash other : String}
    (refused : s.LastRefused (count + 1) hash) (refusedToo : s.LastRefused (count + 1) other) : hash = other := by
  obtain ⟨rest, answers⟩ := refused
  unfold LastRefused at refusedToo
  rw [← answers, List.replicate_succ, List.replicate_succ, List.cons_append, List.cons_prefix_cons] at refusedToo
  exact (NodeAnswer.nack.inj refusedToo.1).symm

/-- A step from a state in which the count is about the desired render leaves such a state exactly when it counts for
    the desired render. -/
theorem aboutDesired_step {s t : NodeHistory} {action : Action} (counted : Counted nodeId s)
    (about : AboutDesired nodeId s) (stepped : step nodeId s action = some t) :
    AboutDesired nodeId t ↔ s.CountsDesired action := by
  have refused := (aboutDesired_iff nodeId counted).mp about
  rw [aboutDesired_iff nodeId (counted_step nodeId _ _ _ counted stepped)]
  cases action with
  | connect | disconnect | push | status =>
    obtain rfl := Option.some.inj stepped
    exact iff_of_true refused trivial
  | ack version hash =>
    obtain rfl := Option.some.inj stepped
    exact iff_of_true (fun long => by cases long) trivial
  | nack version hash reason =>
    obtain rfl := Option.some.inj stepped
    rw [streak_nack, persistentNackThreshold, lastRefused_cons, Nat.succ_le_succ_iff]
    change _ ↔ s.streak < 2 ∨ hash = s.desired ∧ s.LastRefused 2 s.desired
    rw [← Nat.not_le, or_iff_not_imp_left, not_not]
  | desire hash =>
    obtain rfl := Option.some.inj stepped
    change _ ↔ hash = s.desired ∨ s.streak < persistentNackThreshold
    rw [← Nat.not_le, or_comm, or_iff_not_imp_left, not_not]
    refine forall_congr' fun long => ⟨fun new => new.unique (refused long), ?_⟩
    rintro rfl
    exact refused long

/-- When something else becomes desired than what the node was pushed or acknowledged last, the reconciler pushes it to
    the node the next time it comes to it, provided that no wave is in flight and the node waits for none. -/
def Repushes (texts : RenderTexts) (s : NodeHistory) : Action → Prop
  | .desire hash => hash ≠ s.desired → ∀ (cp : ControlPlane) (now : Nat) (queue : List String) (node : NodeState),
      s.store.nodes[nodeId]? = some node → cp.server.store.nodes[nodeId]? = some node →
      cp.fleet.deliveredHash nodeId = s.delivered → (cp.fleet.desiredFor texts node.labels).1.renderHash = hash →
      cp.reconciler = .ticking now (nodeId :: queue) → cp.wavesInFlight = 0 →
      cp.fleet.nodePendingInUnappliedWave node.labels = false →
      (ControlPlane.withDelivered node s.delivered).lastAckedHash ≠ some hash →
        ∃ after, Runs.exec (ControlPlane.step texts) cp [.inspect, .heal] = some after ∧
          ∃ push, after.pushes = cp.pushes ++ [push] ∧ push.snapshot.nodeId = nodeId ∧ push.snapshot.renderHash = hash
  | _ => True

/-- The render that was read for some labels is the one that is read again. -/
theorem desiredFor_again (texts : RenderTexts) (fleet : Fleet) (labels : Labels) :
    ((fleet.desiredFor texts labels).2.desiredFor texts labels).1 = (fleet.desiredFor texts labels).1 := by
  have kept : (fleet.desiredFor texts labels).2.renderCache[canonicalLabels labels]? =
      some (fleet.desiredFor texts labels).1 := by
    unfold Fleet.desiredFor
    dsimp only
    cases cached : fleet.renderCache[canonicalLabels labels]? with
    | some hit => exact cached
    | none => exact Std.TreeMap.getElem?_insert_self
  rw [Fleet.desiredFor, kept]

theorem heal_pushes (texts : RenderTexts) {cp : ControlPlane} {now : Nat} {queue : List String} {labels : Labels}
    {node : NodeState} (turn : cp.reconciler = .healing now queue nodeId labels)
    (known : cp.server.store.nodes[nodeId]? = some node) :
    ∃ after, cp.step texts .heal = some after ∧ ∃ push, after.pushes = cp.pushes ++ [push] ∧
      push.snapshot.nodeId = nodeId ∧
      push.snapshot.renderHash = (cp.fleet.desiredFor texts node.labels).1.renderHash := by
  simp only [ControlPlane.step, turn, ControlPlane.desiredForNode, known]
  exact ⟨_, rfl, _, rfl, rfl, rfl⟩

/-- A node that the reconciler finds drifted, between waves and waiting for none, is pushed its desired render. -/
theorem inspect_heal (texts : RenderTexts) {cp : ControlPlane} {now : Nat} {queue : List String} {node : NodeState}
    (turn : cp.reconciler = .ticking now (nodeId :: queue)) (known : cp.server.store.nodes[nodeId]? = some node)
    (grounded : cp.wavesInFlight = 0) (unpending : cp.fleet.nodePendingInUnappliedWave node.labels = false)
    (heals : (classify (ControlPlane.withDelivered node (cp.fleet.deliveredHash nodeId))
      (cp.fleet.desiredFor texts node.labels).1.renderHash now).healsByRepush = true) :
    ∃ after, Runs.exec (ControlPlane.step texts) cp [.inspect, .heal] = some after ∧
      ∃ push, after.pushes = cp.pushes ++ [push] ∧ push.snapshot.nodeId = nodeId ∧
        push.snapshot.renderHash = (cp.fleet.desiredFor texts node.labels).1.renderHash := by
  have versions := (cp.fleet.desiredFor_versions texts node.labels).1
  have delivered : (cp.fleet.desiredFor texts node.labels).2.deliveredHash nodeId = cp.fleet.deliveredHash nodeId := by
    rw [Fleet.deliveredHash, Fleet.deliveredHash, versions]
  have waits := ((cp.fleet.desiredFor_sameRecord texts node.labels).pending node.labels).trans unpending
  have inspected : cp.inspectNode texts now nodeId queue =
      { cp with
        fleet := (cp.fleet.desiredFor texts node.labels).2, reconciler := .healing now queue nodeId node.labels } := by
    unfold ControlPlane.inspectNode
    simp only [known, delivered, heals, grounded, waits]
    rfl
  have looked : cp.step texts .inspect = some (cp.inspectNode texts now nodeId queue) := by
    simp only [ControlPlane.step, turn]
  have again := desiredFor_again texts cp.fleet node.labels
  have stillKnown : (cp.inspectNode texts now nodeId queue).server.store.nodes[nodeId]? = some node := by
    rw [inspected]
    exact known
  obtain ⟨after, healed, push, pushes, target, hash⟩ :=
    heal_pushes nodeId texts (congrArg ControlPlane.reconciler inspected) stillKnown
  refine ⟨after, Runs.exec_cons.mpr ⟨_, looked, Runs.exec_cons.mpr ⟨after, healed, rfl⟩⟩, push, ?_, target, ?_⟩
  · rw [pushes, inspected]
  · rw [hash, inspected, again]

/-- A change of what is desired that comes before the third refusal is pushed. -/
theorem repushes_of_countsDesired (texts : RenderTexts) {s : NodeHistory} {action : Action} (counted : Counted nodeId s)
    (counts : s.CountsDesired action) : Repushes nodeId texts s action := by
  cases action with
  | connect | disconnect | push | ack | nack | status => trivial
  | desire hash =>
    intro changed cp now queue node held known delivered desired turn grounded unpending undelivered
    obtain ⟨same, found, count, outside⟩ := counted
    obtain rfl := Option.some.inj (held.symm.trans found)
    obtain ⟨nacks, glass⟩ := withDelivered_frame node s.delivered
    have few : node.consecutiveNacks < persistentNackThreshold := by
      have short : s.streak < persistentNackThreshold := counts.resolve_left changed
      omega
    have stale := classify_stale (glass.trans outside) (nacks ▸ few) undelivered now
    rw [← desired]
    refine inspect_heal nodeId texts turn known grounded unpending ?_
    rw [delivered, desired, stale]
    rfl

/-- Over every history of pushes, answers, heartbeats, reconnects and changes of what is desired: in every state the node
    counts as persistently divergent only after its last three answers or more were refusals of what is desired now, and
    what becomes desired instead of it is pushed to it, if and only if a refusal makes three in a row only when all of
    them are of the desired render, and what is desired changes only before there are three. -/
theorem divergence_about_desired_iff (texts : RenderTexts) (labels : Labels) (desired : String) (actions : List Action)
    (s : NodeHistory) (executed : Runs.exec (step nodeId) (start nodeId labels desired) actions = some s) :
    ((∀ before later t, actions = before ++ later →
          Runs.exec (step nodeId) (start nodeId labels desired) before = some t → AboutDesired nodeId t) ∧
        Runs.Along (step nodeId) (Repushes nodeId texts) (start nodeId labels desired) actions) ↔
      Runs.Along (step nodeId) CountsDesired (start nodeId labels desired) actions := by
  have counted := counted_start nodeId labels desired
  have first : AboutDesired nodeId (start nodeId labels desired) :=
    (aboutDesired_iff nodeId counted).mpr fun long => by cases long
  have keptIff : ∀ s action t, Counted nodeId s ∧ AboutDesired nodeId s → step nodeId s action = some t →
      (Counted nodeId t ∧ AboutDesired nodeId t ↔ s.CountsDesired action) := by
    rintro s action t ⟨counted, about⟩ stepped
    rw [← aboutDesired_step nodeId counted about stepped]
    exact and_iff_right (counted_step nodeId _ _ _ counted stepped)
  have states := Runs.along_iff_states keptIff ⟨counted, first⟩ executed
  have reached {before : List Action} {t : NodeHistory}
      (reaches : Runs.exec (step nodeId) (start nodeId labels desired) before = some t) : Counted nodeId t :=
    Runs.exec_preserves (counted_step nodeId) counted reaches
  constructor
  · rintro ⟨about, -⟩
    exact states.mpr fun before later t parts reaches => ⟨reached reaches, about before later t parts reaches⟩
  · intro counts
    refine ⟨fun before later t parts reaches => (states.mp counts before later t parts reaches).2, ?_⟩
    rw [Runs.along_iff_steps] at counts ⊢
    intro before action later t parts reaches
    exact repushes_of_countsDesired nodeId texts (reached reaches) (counts before action later t parts reaches)

def noTexts : RenderTexts := ⟨fun _ _ => .error "no config", id⟩

/-- The node refuses the first render twice and then takes the second, which it refuses three times later on. -/
def refusesSecond : List Action :=
  [.push "v1", .nack 1 "v1" "bad", .push "v1", .nack 1 "v1" "bad", .desire "v2", .push "v2", .ack 2 "v2", .status "v2",
    .push "v2", .nack 2 "v2" "bad", .nack 2 "v2" "bad", .nack 2 "v2" "bad"]

theorem refuses_second_about_desired :
    (∀ before later t, refusesSecond = before ++ later →
        Runs.exec (step "n1") (start "n1" ∅ "v1") before = some t → AboutDesired "n1" t) ∧
      Runs.Along (step "n1") (Repushes "n1" noTexts) (start "n1" ∅ "v1") refusesSecond :=
  (divergence_about_desired_iff "n1" noTexts ∅ "v1" refusesSecond _
    (Runs.exec_eq_getD _ _ _ (by decide) (start "n1" ∅ "v1"))).mpr (by decide)

/-- The node refuses the first render three times, and is left alone for good when the second becomes desired, of which
    it has not heard. -/
def refusesFirst : List Action := [.push "v1", .nack 1 "v1" "bad", .nack 1 "v1" "bad", .nack 1 "v1" "bad", .desire "v2"]

theorem second_never_pushed :
    ¬ ∀ (nodeId : String) (labels : Labels) (desired : String) (actions : List Action) (s : NodeHistory),
      Runs.exec (step nodeId) (start nodeId labels desired) actions = some s → AboutDesired nodeId s := by
  intro claimed
  have executed := Runs.exec_eq_getD (step "n1") (start "n1" ∅ "v1") refusesFirst (by decide) (start "n1" ∅ "v1")
  have about := claimed "n1" ∅ "v1" refusesFirst _ executed
  have counted := Runs.exec_preserves (counted_step "n1") (counted_start "n1" ∅ "v1") executed
  have refused := (aboutDesired_iff "n1" counted).mp about
  revert refused
  decide

end NodeHistory

end SmallGateway
