import SmallGateway.Waves

/-!
The fleet's desired state and how far it is applied (`gatewayctl/src/{render,fleet}.rs`). A resolved repo renders
to one flat config, and for a node's labels to that config with the matching gateway sets stamped on; the fleet
holds what is applied now, the commit every wave is on, and the version and hash each node was last pushed.

How the files of a repo assemble to a flat config text, and the hash of a text, are taken as given.
-/

namespace SmallGateway

/-! ### Rendering -/

/-- A resolved config repo: its files by path and the id of the source state they come from. -/
structure ResolvedRepo where
  files : List (String × List UInt8)
  sourceCommit : String
  deriving DecidableEq

/-- What rendering rests on: the canonical, validated flat config of a repo's files, stamped for a node's labels
    or not, and the hash of a text. -/
structure RenderTexts where
  flatFor : List (String × List UInt8) → Option Labels → Except String String
  contentHash : String → String

structure Rendered where
  configBytes : List UInt8
  renderHash : String
  sourceCommit : String
  deriving DecidableEq

def RenderTexts.finalize (texts : RenderTexts) (resolved : ResolvedRepo) (flat : String) : Rendered :=
  ⟨flat.toUTF8.toList, texts.contentHash flat, resolved.sourceCommit⟩

/-- The fleet-wide render. -/
def RenderTexts.renderResolved (texts : RenderTexts) (resolved : ResolvedRepo) : Except String Rendered :=
  (texts.flatFor resolved.files none).map (texts.finalize resolved)

/-- The render for the labels of one node. -/
def RenderTexts.renderResolvedForNode (texts : RenderTexts) (resolved : ResolvedRepo) (labels : Labels) :
    Except String Rendered :=
  (texts.flatFor resolved.files (some labels)).map (texts.finalize resolved)

theorem renderResolved_commit {texts : RenderTexts} {resolved : ResolvedRepo} {rendered : Rendered}
    (renders : texts.renderResolved resolved = .ok rendered) : rendered.sourceCommit = resolved.sourceCommit := by
  unfold RenderTexts.renderResolved at renders
  cases assembled : texts.flatFor resolved.files none with
  | error e => simp [assembled, Except.map] at renders
  | ok flat =>
    simp only [assembled, Except.map, Except.ok.injEq] at renders
    subst renders
    rfl

theorem renderResolvedForNode_commit {texts : RenderTexts} {resolved : ResolvedRepo} {labels : Labels}
    {rendered : Rendered} (renders : texts.renderResolvedForNode resolved labels = .ok rendered) :
    rendered.sourceCommit = resolved.sourceCommit := by
  unfold RenderTexts.renderResolvedForNode at renders
  cases assembled : texts.flatFor resolved.files (some labels) with
  | error e => simp [assembled, Except.map] at renders
  | ok flat =>
    simp only [assembled, Except.map, Except.ok.injEq] at renders
    subst renders
    rfl

/-- What is shipped to one node. -/
structure RenderedSnapshot where
  nodeId : String
  sourceCommit : String
  renderHash : String
  fleetVersion : Nat
  config : List UInt8
  deriving DecidableEq

def Rendered.toSnapshot (rendered : Rendered) (nodeId : String) (fleetVersion : Nat) : RenderedSnapshot :=
  ⟨nodeId, rendered.sourceCommit, rendered.renderHash, fleetVersion, rendered.configBytes⟩

/-! ### The fleet -/

/-- What the desired render of a node is derived from. -/
structure DesiredInputs where
  resolved : ResolvedRepo
  plan : WavePlan

/-- The part of the canary policy that steers a rollout: whether waves are analysed, and after which of them an
    approval is awaited. -/
structure CanaryPolicy where
  enabled : Bool
  manualGateAfter : List String

def CanaryPolicy.gatesAfter (policy : CanaryPolicy) (wave : String) : Bool := policy.manualGateAfter.contains wave

/-- The version and the hash a node was last pushed. -/
structure NodeVersioning where
  lastVersion : Nat
  lastPushedHash : Option String
  deriving DecidableEq

structure Fleet where
  applied : Rendered
  committedVersion : Nat
  perNode : Std.TreeMap String NodeVersioning
  desired : Option DesiredInputs
  waveCommit : Std.TreeMap String String
  renderCache : Std.TreeMap String Rendered
  canary : CanaryPolicy

/-- One node's response to a push. -/
inductive AckResult
  | acked (hash : String)
  | nacked (reason : String)
  | silent
  deriving DecidableEq

inductive DivergenceKind
  | nacked (version : Nat) (reason : String)
  | silent (version : Nat)
  | wrongHash (version : Nat) (expected got : String)
  deriving DecidableEq

structure Divergence where
  nodeId : String
  kind : DivergenceKind
  deriving DecidableEq

inductive WaveOutcome
  | committed (renderHash : String) (nodeCount : Nat)
  | halted (renderHash : String) (divergences : List Divergence)
  | noNodes (renderHash : String)
  deriving DecidableEq

/-- The commit of a wave that has never committed. -/
def neverCommitted : String := "(never committed)"

/-- A node's labels as the key of its render. -/
def canonicalLabels (labels : Labels) : String :=
  labels.foldl (fun text label value => text ++ label ++ "=" ++ value ++ ";") ""

namespace Fleet

/-- A fleet whose desired state comes from a resolved repo. -/
def fromSource (applied : Rendered) (resolved : ResolvedRepo) (plan : WavePlan) : Fleet :=
  ⟨applied, 0, ∅, some ⟨resolved, plan⟩, ∅, ∅, ⟨false, []⟩⟩

/-- Applies a source: what is desired changes at once, and whether it changed at all is decided by its commit. -/
def setAppliedFromSource (fleet : Fleet) (next : Rendered) (resolved : ResolvedRepo) (plan : WavePlan) :
    Bool × Fleet :=
  (fleet.applied.sourceCommit != next.sourceCommit,
    { fleet with applied := next, desired := some ⟨resolved, plan⟩, renderCache := ∅ })

def setCanaryPolicy (fleet : Fleet) (policy : CanaryPolicy) : Fleet := { fleet with canary := policy }

def wavePlan (fleet : Fleet) : WavePlan := (fleet.desired.map (·.plan)).getD .single

/-- The desired render for a node's labels, kept under the key of the labels until the next apply. Where it
    cannot be rendered the applied one stands in. -/
def desiredFor (texts : RenderTexts) (fleet : Fleet) (labels : Labels) : Rendered × Fleet :=
  let key := canonicalLabels labels
  match fleet.renderCache[key]? with
  | some hit => (hit, fleet)
  | none =>
    let rendered := match fleet.desired with
      | none => fleet.applied
      | some inputs =>
        match texts.renderResolvedForNode inputs.resolved labels with
        | .ok rendered => rendered
        | .error _ => fleet.applied
    (rendered, { fleet with renderCache := fleet.renderCache.insert key rendered })

def setWaveCommit (fleet : Fleet) (waveName sourceCommit : String) : Fleet :=
  { fleet with waveCommit := fleet.waveCommit.insert waveName sourceCommit }

/-- Records a wave back on the commit it was on before. -/
def revertWaveCommit (fleet : Fleet) (waveName priorCommit : String) : Fleet :=
  { fleet with
    waveCommit := if priorCommit = neverCommitted then fleet.waveCommit.erase waveName
      else fleet.waveCommit.insert waveName priorCommit }

/-- The commit a wave is recorded on. -/
def frozenCommit (fleet : Fleet) (waveName : String) : String := fleet.waveCommit[waveName]?.getD neverCommitted

/-- The node waits for its wave: some wave is on the applied commit, and the node's own is not. A plan of one
    wave has nobody waiting. -/
def nodePendingInUnappliedWave (fleet : Fleet) (labels : Labels) : Bool :=
  match fleet.desired with
  | none => false
  | some inputs =>
    if inputs.plan.waves.length ≤ 1 then false
    else if !fleet.waveCommit.values.contains fleet.applied.sourceCommit then false
    else fleet.waveCommit[inputs.plan.waveNameFor labels]? != some fleet.applied.sourceCommit

def deliveredHash (fleet : Fleet) (nodeId : String) : Option String :=
  fleet.perNode[nodeId]?.bind (·.lastPushedHash)

def versioning (fleet : Fleet) (nodeId : String) : NodeVersioning := fleet.perNode[nodeId]?.getD ⟨0, none⟩

/-- The version a push of a hash to a node would get: a hash that was pushed last keeps its version. -/
def mintedVersion (fleet : Fleet) (nodeId hash : String) : Nat :=
  let entry := fleet.versioning nodeId
  if entry.lastPushedHash = some hash then entry.lastVersion else entry.lastVersion + 1

/-- Assigns that version. -/
def nextVersionFor (fleet : Fleet) (nodeId hash : String) : Nat × Fleet :=
  let version := fleet.mintedVersion nodeId hash
  (version, { fleet with perNode := fleet.perNode.insert nodeId ⟨version, some hash⟩ })

/-- What one node's answer says against the hash it was pushed. -/
def divergence (version : Nat) (want nodeId : String) : AckResult → Option Divergence
  | .acked hash => if hash = want then none else some ⟨nodeId, .wrongHash version want hash⟩
  | .nacked reason => some ⟨nodeId, .nacked version reason⟩
  | .silent => some ⟨nodeId, .silent version⟩

/-- Adjudicates a wave, each node against the hash it was pushed. A clean sweep moves the committed version. -/
def concludeWaveMulti (fleet : Fleet) (outcomeHash : String) (expected : List (String × String)) (version : Nat)
    (results : List (String × AckResult)) : WaveOutcome × Fleet :=
  if results.isEmpty then (.noNodes outcomeHash, fleet)
  else
    let want (nodeId : String) := ((expected.find? fun entry => entry.1 == nodeId).map (·.2)).getD outcomeHash
    let divergences := results.filterMap fun (nodeId, result) => divergence version (want nodeId) nodeId result
    if divergences.isEmpty then
      (.committed outcomeHash results.length, { fleet with committedVersion := version })
    else (.halted outcomeHash divergences, fleet)

/-! ### What pushes leave alone -/

/-- Two fleets with the same desired state and the same commits of their waves. They may differ in what they keep
    of single nodes, and in the committed version. -/
structure SameRecord (fleet other : Fleet) : Prop where
  applied : other.applied = fleet.applied
  desired : other.desired = fleet.desired
  waveCommit : other.waveCommit = fleet.waveCommit
  canary : other.canary = fleet.canary

theorem SameRecord.refl (fleet : Fleet) : fleet.SameRecord fleet := ⟨rfl, rfl, rfl, rfl⟩

theorem SameRecord.trans {first second third : Fleet} (before : first.SameRecord second)
    (after : second.SameRecord third) : first.SameRecord third :=
  ⟨after.applied.trans before.applied, after.desired.trans before.desired,
    after.waveCommit.trans before.waveCommit, after.canary.trans before.canary⟩

theorem SameRecord.frozenCommit {fleet other : Fleet} (same : fleet.SameRecord other) (waveName : String) :
    other.frozenCommit waveName = fleet.frozenCommit waveName := by
  unfold Fleet.frozenCommit
  rw [same.waveCommit]

theorem desiredFor_sameRecord (texts : RenderTexts) (fleet : Fleet) (labels : Labels) :
    fleet.SameRecord (fleet.desiredFor texts labels).2 := by
  cases cached : fleet.renderCache[canonicalLabels labels]? with
  | some hit => simpa only [desiredFor, cached] using SameRecord.refl fleet
  | none =>
    simp only [desiredFor, cached]
    exact ⟨rfl, rfl, rfl, rfl⟩

theorem desiredFor_versions (texts : RenderTexts) (fleet : Fleet) (labels : Labels) :
    (fleet.desiredFor texts labels).2.perNode = fleet.perNode ∧
      (fleet.desiredFor texts labels).2.committedVersion = fleet.committedVersion := by
  cases cached : fleet.renderCache[canonicalLabels labels]? with
  | some hit => simp only [desiredFor, cached, and_self]
  | none => simp only [desiredFor, cached, and_self]

theorem nextVersionFor_sameRecord (fleet : Fleet) (nodeId hash : String) :
    fleet.SameRecord (fleet.nextVersionFor nodeId hash).2 := ⟨rfl, rfl, rfl, rfl⟩

theorem mintedVersion_congr {fleet other : Fleet} {nodeId : String}
    (same : other.perNode[nodeId]? = fleet.perNode[nodeId]?) (hash : String) :
    other.mintedVersion nodeId hash = fleet.mintedVersion nodeId hash := by
  unfold mintedVersion versioning
  rw [same]

/-- A push to a node leaves the versions of the others alone. -/
theorem nextVersionFor_other (fleet : Fleet) {nodeId other : String} (hash : String) (different : other ≠ nodeId) :
    (fleet.nextVersionFor nodeId hash).2.perNode[other]? = fleet.perNode[other]? := by
  simp [nextVersionFor, Std.TreeMap.getElem?_insert, different.symm]

theorem concludeWaveMulti_sameRecord (fleet : Fleet) (outcomeHash : String) (expected : List (String × String))
    (version : Nat) (results : List (String × AckResult)) :
    fleet.SameRecord (fleet.concludeWaveMulti outcomeHash expected version results).2 := by
  unfold concludeWaveMulti
  split
  · exact .refl fleet
  · dsimp only
    split
    · exact ⟨rfl, rfl, rfl, rfl⟩
    · exact .refl fleet

theorem concludeWaveMulti_sameDesired (fleet : Fleet) (outcomeHash : String) (expected : List (String × String))
    (version : Nat) (results : List (String × AckResult)) :
    let concluded := (fleet.concludeWaveMulti outcomeHash expected version results).2
    concluded.renderCache = fleet.renderCache ∧ concluded.applied = fleet.applied ∧
      concluded.desired = fleet.desired := by
  unfold concludeWaveMulti
  split
  · exact ⟨rfl, rfl, rfl⟩
  · dsimp only
    split <;> exact ⟨rfl, rfl, rfl⟩

theorem concludeWaveMulti_perNode (fleet : Fleet) (outcomeHash : String) (expected : List (String × String))
    (version : Nat) (results : List (String × AckResult)) :
    (fleet.concludeWaveMulti outcomeHash expected version results).2.perNode = fleet.perNode := by
  unfold concludeWaveMulti
  split
  · rfl
  · dsimp only
    split
    · rfl
    · rfl

/-- Only a wave without answers has no nodes. -/
theorem concludeWaveMulti_noNodes {fleet : Fleet} {outcomeHash hash : String} {expected : List (String × String)}
    {version : Nat} {results : List (String × AckResult)}
    (noNodes : (fleet.concludeWaveMulti outcomeHash expected version results).1 = .noNodes hash) : results = [] := by
  unfold concludeWaveMulti at noNodes
  split at noNodes
  · rename_i none
    exact List.isEmpty_iff.mp none
  · dsimp only at noNodes
    split at noNodes <;> simp at noNodes

/-- A wave that is committed has set the committed version. -/
theorem concludeWaveMulti_committed {fleet : Fleet} {outcomeHash hash : String} {expected : List (String × String)}
    {version nodeCount : Nat} {results : List (String × AckResult)}
    (committed : (fleet.concludeWaveMulti outcomeHash expected version results).1 = .committed hash nodeCount) :
    (fleet.concludeWaveMulti outcomeHash expected version results).2.committedVersion = version := by
  unfold concludeWaveMulti at committed ⊢
  split
  · simp_all
  · dsimp only
    split
    · rfl
    · simp_all

/-- In a wave that is committed every answer is an acknowledgement of what its node was pushed. -/
theorem concludeWaveMulti_acked {fleet : Fleet} {outcomeHash hash : String} {expected : List (String × String)}
    {version nodeCount : Nat} {results : List (String × AckResult)}
    (committed : (fleet.concludeWaveMulti outcomeHash expected version results).1 = .committed hash nodeCount) :
    ∀ entry ∈ results, entry.2 =
      .acked (((expected.find? fun want => want.1 == entry.1).map (·.2)).getD outcomeHash) := by
  unfold concludeWaveMulti at committed
  split at committed
  · simp at committed
  · dsimp only at committed
    split at committed
    · rename_i none
      rw [List.isEmpty_iff, List.filterMap_eq_nil_iff] at none
      intro entry inside
      have clean := none entry inside
      unfold divergence at clean
      split at clean
      · rename_i got answer
        rw [answer]
        split at clean
        · rename_i same
          rw [same]
        · simp at clean
      · simp at clean
      · simp at clean
    · simp at committed

/-- What is wanted of a node for which every entry says the same. -/
theorem wanted {expected : List (String × String)} {nodeId hash : String} (listed : (nodeId, hash) ∈ expected)
    (only : ∀ entry ∈ expected, entry.1 = nodeId → entry.2 = hash) (other : String) :
    ((expected.find? fun want => want.1 == nodeId).map (·.2)).getD other = hash := by
  cases found : expected.find? fun want => want.1 == nodeId with
  | none => simpa using List.find?_eq_none.mp found (nodeId, hash) listed
  | some entry => exact only entry (List.mem_of_find?_eq_some found) (by simpa using List.find?_some found)

/-- In a wave that is committed a node of which one hash is wanted has acknowledged it. -/
theorem concludeWaveMulti_acked_wanted {fleet : Fleet} {outcomeHash hash : String} {expected : List (String × String)}
    {version nodeCount : Nat} {results : List (String × AckResult)}
    (committed : (fleet.concludeWaveMulti outcomeHash expected version results).1 = .committed hash nodeCount)
    {nodeId want : String} {result : AckResult} (answered : (nodeId, result) ∈ results)
    (listed : (nodeId, want) ∈ expected) (only : ∀ entry ∈ expected, entry.1 = nodeId → entry.2 = want) :
    result = .acked want := by
  have acked := concludeWaveMulti_acked committed _ answered
  dsimp only at acked
  rwa [wanted listed only] at acked

/-- The prior commit of a wave is put back, unless it is spelled like the commit of a wave that has none. -/
theorem revertWaveCommit_frozenCommit (fleet : Fleet) (waveName : String) :
    (∀ name : String, (fleet.revertWaveCommit waveName (fleet.frozenCommit waveName)).waveCommit[name]? =
      fleet.waveCommit[name]?) ↔ fleet.waveCommit[waveName]? ≠ some neverCommitted := by
  have changed : ∀ name : String, (fleet.revertWaveCommit waveName (fleet.frozenCommit waveName)).waveCommit[name]? =
      if name = waveName ∧ fleet.frozenCommit waveName = neverCommitted then none
      else if name = waveName then some (fleet.frozenCommit waveName) else fleet.waveCommit[name]? := by
    intro name
    unfold revertWaveCommit
    by_cases same : name = waveName
    · subst same
      by_cases never : fleet.frozenCommit name = neverCommitted <;> simp [never]
    · by_cases never : fleet.frozenCommit waveName = neverCommitted <;>
        simp [never, same, Std.TreeMap.getElem?_insert, Std.TreeMap.getElem?_erase, Ne.symm same]
  simp only [changed]
  cases recorded : fleet.waveCommit[waveName]? with
  | none =>
    have never : fleet.frozenCommit waveName = neverCommitted := by simp [frozenCommit, recorded]
    simp only [never, and_true, ne_eq, reduceCtorEq, not_false_eq_true, iff_true]
    intro name
    by_cases same : name = waveName
    · simp [same, recorded]
    · simp [same]
  | some commit =>
    have on : fleet.frozenCommit waveName = commit := by simp [frozenCommit, recorded]
    rw [on]
    constructor
    · intro restored spelled
      rw [Option.some.injEq] at spelled
      simpa [spelled, recorded] using restored waveName
    · intro spelled name
      have different : commit ≠ neverCommitted := fun same => spelled (congrArg some same)
      by_cases same : name = waveName
      · simp [same, different, recorded]
      · simp [same]

end Fleet

end SmallGateway
