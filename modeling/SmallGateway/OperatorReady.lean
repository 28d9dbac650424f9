import SmallGateway.Fleet
import SmallGateway.LabelTokens
import SmallGateway.Lib.Fallible

/-!
How the operator decides that a gateway is ready (`Reconcile` and the fleet-commit gate in
`controllers/llmgateway_controller.go`, the status document in `gatewayctl/src/status_http.rs`). It looks at the
deployment of the control plane, at the stateful set of the data planes and at what a control plane says of its fleet.
The gate asks whether enough of the nodes acknowledged the render that the control plane applies. It does not ask which
spec that render comes from, which nodes they are, nor what the others run: what Ready means is said by
`ready_sound_iff`.
-/

namespace SmallGateway

/-! ### The fleet's answer -/

/-- What the status document says of a node, as far as the operator reads it. -/
structure FleetNode where
  nodeId : String
  labels : Labels
  connected : Bool
  ackedVersion : Option Nat
  ackedHash : Option String

structure FleetStatus where
  renderHash : String
  sourceCommit : String
  committedVersion : Nat
  nodes : List FleetNode

/-- The status document of a control plane: what it applies, and the nodes that it knows by id. -/
def statusJson (renderHash sourceCommit : String) (committedVersion : Nat) (store : RuntimeStore) : FleetStatus :=
  ⟨renderHash, sourceCommit, committedVersion, store.nodes.toList.map fun (nodeId, node) =>
    ⟨nodeId, node.labels, node.connected, node.lastAckedVersion, node.lastAckedHash⟩⟩

structure NodeStatus where
  nodeId : String
  ackedVersion : Nat
  ackedHash : String
  healthy : Bool
  deriving DecidableEq

namespace FleetStatus

/-- The node is connected, and acknowledged the render that is applied. -/
def acked (fs : FleetStatus) (node : FleetNode) : Bool := node.connected && node.ackedHash == some fs.renderHash

def nodeStatuses (fs : FleetStatus) : List NodeStatus :=
  fs.nodes.map fun node => ⟨node.nodeId, node.ackedVersion.getD 0, node.ackedHash.getD "", fs.acked node⟩

/-- Whether the fleet has committed, or what is missing. -/
def committed (fs : FleetStatus) (desired : Int) : Bool × String :=
  let acked := fs.nodes.countP fs.acked
  if (fs.nodes.length : Int) < desired then
    (false, toString fs.nodes.length ++ "/" ++ toString desired ++ " data plane(s) joined the fleet")
  else if (acked : Int) < desired then
    (false, toString acked ++ "/" ++ toString desired ++ " data plane(s) acked the applied render " ++
      String.ofList (fs.renderHash.toList.take 12))
  else (true, "")

end FleetStatus

/-! ### The operator -/

structure Condition where
  type : String
  status : Bool
  reason : String
  message : String
  observedGeneration : Int
  deriving DecidableEq

structure GatewayStatus where
  observedGeneration : Int
  renderedConfigHash : String
  dataPlanes : String
  controlPlaneReady : Bool
  conditions : List Condition
  nodes : List NodeStatus
  deriving DecidableEq

namespace GatewayStatus

/-- The first condition of the type changes, or it becomes the last one. -/
def setCondition (status : GatewayStatus) (condition : Condition) : GatewayStatus :=
  let rec upsert : List Condition → List Condition
    | [] => [condition]
    | first :: rest => if first.type = condition.type then condition :: rest else first :: upsert rest
  { status with conditions := upsert status.conditions }

def ready (status : GatewayStatus) : Bool :=
  (status.conditions.find? fun condition => condition.type == "Ready").any (·.status)

end GatewayStatus

/-- The rendered repo: its files by path, and their hash. -/
structure RenderResult where
  fragments : List (String × List UInt8)
  hash : String

/-- A custom resource. What the repo is rendered from is not looked into. -/
structure LLMGateway (Config : Type) where
  name : String
  generation : Int
  config : Config
  dataPlanes : Option DataPlanesSpec
  status : GatewayStatus

/-- A deployment or a stateful set, as the API server has it. -/
structure Workload where
  replicas : Option Int
  readyReplicas : Int

/-- What the calls of one reconciliation come to: the children that are created or updated, the workloads that are read,
    the answer of the fleet where it is asked, and the writing of the status. -/
structure Observed where
  secret : Except String Unit
  configMap : Except String Unit
  controlPlane : Except String Unit
  dataPlanes : Except String Unit
  ctl : Except String (Option Workload)
  statefulSet : Except String (Option Workload)
  fleet : Except String FleetStatus
  update : Except String Unit

/-- The status that is written, if one is, and the seconds until the next time. -/
structure Outcome where
  written : Option GatewayStatus
  result : Except String Nat

def deploymentReady : Option Workload → Bool
  | none => false
  | some dep =>
    let desired := dep.replicas.getD 1
    desired ≤ dep.readyReplicas && 0 < desired

def statefulSetReplicas : Option Workload → Int × Int
  | none => (0, 0)
  | some ss => (ss.readyReplicas, ss.replicas.getD 1)

namespace LLMGateway

variable {Config : Type} (render : Config → Except String RenderResult) (gw : LLMGateway Config) (observed : Observed)

def write (status : GatewayStatus) (result : Except String Nat) : Outcome :=
  match observed.update with
  | .error err => ⟨none, .error err⟩
  | .ok () => ⟨some status, result⟩

def fail (reason msg : String) : Outcome :=
  let status := (gw.status.setCondition ⟨"Ready", false, reason, msg, gw.generation⟩).setCondition
    ⟨"Degraded", true, reason, msg, gw.generation⟩
  write observed { status with observedGeneration := gw.generation } (.error (reason ++ ": " ++ msg))

/-- The render and the children, or the reason and the message of what failed. -/
def ensure : Except (String × String) RenderResult := do
  let rendered ← (render gw.config).mapError fun err => ("RenderFailed", "rendering config repo: " ++ err)
  observed.secret.mapError fun err => ("SecretFailed", "join-token secret: " ++ err)
  observed.configMap.mapError fun err => ("ConfigMapFailed", "config-repo configmap: " ++ err)
  observed.controlPlane.mapError fun err => ("ControlPlaneFailed", "gatewayctl: " ++ err)
  observed.dataPlanes.mapError fun err => ("DataPlaneFailed", "gatewayd: " ++ err)
  return rendered

/-- The fleet-commit gate: whether the fleet has committed, what is missing, and the nodes. -/
def gate (childrenReady : Bool) (dpDesired : Int) : Bool × String × List NodeStatus :=
  if childrenReady then
    match observed.fleet with
    | .error err => (false, "fleet status unavailable: " ++ err, [])
    | .ok fs => ((fs.committed dpDesired).1, (fs.committed dpDesired).2, fs.nodeStatuses)
  else (false, "", gw.status.nodes)

/-- What is written once the workloads are read. -/
def settle (rendered : RenderResult) (ctl statefulSet : Option Workload) : Outcome :=
  let ctlReady := deploymentReady ctl
  let (dpReady, dpDesired) := statefulSetReplicas statefulSet
  let childrenReady := ctlReady && 1 ≤ dpReady && dpReady = dpDesired
  let (fleetCommitted, fleetMsg, nodes) := gw.gate observed childrenReady dpDesired
  let status := { gw.status with
    observedGeneration := gw.generation
    renderedConfigHash := rendered.hash
    controlPlaneReady := ctlReady
    dataPlanes := toString dpReady ++ "/" ++ toString dpDesired
    nodes }
  if childrenReady && fleetCommitted then
    let ready := status.setCondition ⟨"Ready", true, "FleetCommitted",
      "all " ++ toString dpDesired ++ " data plane(s) acked the applied render", gw.generation⟩
    write observed (ready.setCondition ⟨"Degraded", false, "Healthy", "", gw.generation⟩) (.ok 60)
  else
    let (reason, msg) :=
      if ctlReady && !childrenReady then
        ("DataPlanesNotReady",
          "waiting for data planes (" ++ toString dpReady ++ "/" ++ toString dpDesired ++ " Ready)")
      else if childrenReady then ("AwaitingFleetCommit", fleetMsg)
      else ("ControlPlaneNotReady", "waiting for gatewayctl to become Ready")
    write observed (status.setCondition ⟨"Ready", false, reason, msg, gw.generation⟩) (.ok 10)

def reconcile : Outcome :=
  match gw.ensure render observed with
  | .error (reason, msg) => gw.fail observed reason msg
  | .ok rendered =>
    match observed.ctl with
    | .error err => ⟨none, .error err⟩
    | .ok ctl =>
      match observed.statefulSet with
      | .error err => ⟨none, .error err⟩
      | .ok statefulSet => gw.settle observed rendered ctl statefulSet

/-! ### What Ready means -/

/-- The hash is that of the fleet's render of the config's repo. -/
def Produced (texts : RenderTexts) (render : Config → Except String RenderResult) (config : Config) (hash : String) :
    Prop :=
  ∃ result commit rendered, render config = .ok result ∧
    texts.renderResolved ⟨result.fragments, commit⟩ = .ok rendered ∧ rendered.renderHash = hash

/-- The node of an ordinal, by its name. -/
def nodeName (ordinal : Nat) : String := LabelTokens.podName (gw.name ++ "-gatewayd") ordinal

variable (texts : RenderTexts)

/-- Every data plane of the spec is connected and acknowledged a render of the spec, and no connected node acknowledged
    another render last. -/
structure Sound (fs : FleetStatus) : Prop where
  desired : ∀ ordinal < (dataPlaneTopology gw.dataPlanes).1, ∃ node ∈ fs.nodes, node.nodeId = gw.nodeName ordinal ∧
    node.connected = true ∧ ∃ hash, node.ackedHash = some hash ∧ Produced texts render gw.config hash
  connected : ∀ node ∈ fs.nodes, node.connected = true → ∀ hash, node.ackedHash = some hash →
    Produced texts render gw.config hash

/-- What the gate does not ask: the control plane that answers applies a render of the spec, no connected node
    acknowledged another render than the applied one last, and the nodes of the spec's data planes are among the healthy
    ones. -/
structure Unasked (fs : FleetStatus) : Prop where
  applied : Produced texts render gw.config fs.renderHash
  settled : ∀ node ∈ fs.nodes, node.connected = true → ∀ hash, node.ackedHash = some hash → hash = fs.renderHash
  present : ∀ ordinal < (dataPlaneTopology gw.dataPlanes).1, ∃ status ∈ fs.nodeStatuses,
    status.nodeId = gw.nodeName ordinal ∧ status.healthy = true

end LLMGateway

theorem FleetStatus.acked_iff {fs : FleetStatus} {node : FleetNode} :
    fs.acked node = true ↔ node.connected = true ∧ node.ackedHash = some fs.renderHash := by
  rw [FleetStatus.acked, Bool.and_eq_true, beq_iff_eq]

/-- A fleet has committed exactly when enough of its nodes acknowledged the applied render. -/
theorem FleetStatus.committed_iff (fs : FleetStatus) (desired : Int) :
    (fs.committed desired).1 = true ↔ desired ≤ fs.nodes.countP fs.acked := by
  have fewer : fs.nodes.countP fs.acked ≤ fs.nodes.length := List.countP_le_length
  unfold FleetStatus.committed
  dsimp only
  split
  · simp only [Bool.false_eq_true, false_iff]
    omega
  · split
    · simp only [Bool.false_eq_true, false_iff]
      omega
    · simp only [true_iff]
      omega

theorem GatewayStatus.find?_upsert (condition : Condition) (conditions : List Condition) (type : String) :
    (setCondition.upsert condition conditions).find? (fun known => known.type == type) =
      if condition.type = type then some condition else conditions.find? fun known => known.type == type := by
  induction conditions with
  | nil =>
    by_cases same : condition.type = type
    · simp [setCondition.upsert, same]
    · simp [setCondition.upsert, same]
  | cons first rest ih =>
    rw [setCondition.upsert]
    split
    · rename_i own
      by_cases same : condition.type = type
      · simp [same]
      · simp [same, own]
    · rename_i other
      by_cases same : first.type = type
      · have differs : condition.type ≠ type := fun equal => other (same.trans equal.symm)
        simp [same, differs]
      · rw [List.find?_cons_of_neg (by simpa using same), ih, List.find?_cons_of_neg (by simpa using same)]

/-- Only the condition of that name says that a gateway is ready. -/
theorem GatewayStatus.setCondition_ready (status : GatewayStatus) (condition : Condition) :
    (status.setCondition condition).ready = if condition.type = "Ready" then condition.status else status.ready := by
  unfold ready setCondition
  rw [find?_upsert]
  split <;> rfl

namespace LLMGateway

variable {Config : Type} {render : Config → Except String RenderResult} {gw : LLMGateway Config} {observed : Observed}

theorem write_written {status written : GatewayStatus} {result : Except String Nat}
    (writes : (write observed status result).written = some written) : written = status := by
  unfold write at writes
  split at writes
  · cases writes
  · exact (Option.some.inj writes).symm

theorem fail_not_ready {reason msg : String} {written : GatewayStatus}
    (writes : (gw.fail observed reason msg).written = some written) : written.ready = false := by
  obtain rfl := write_written writes
  have conditions : ((gw.status.setCondition ⟨"Ready", false, reason, msg, gw.generation⟩).setCondition
      ⟨"Degraded", true, reason, msg, gw.generation⟩).ready = false := by
    have other : "Degraded" ≠ "Ready" := by decide
    rw [GatewayStatus.setCondition_ready, if_neg other, GatewayStatus.setCondition_ready, if_pos rfl]
  exact conditions

/-- Past the gate, the fleet has answered, and as many of its nodes acknowledged the applied render as the stateful set
    has replicas. -/
theorem settle_ready {rendered : RenderResult} {ctl statefulSet : Option Workload} {written : GatewayStatus}
    (writes : (gw.settle observed rendered ctl statefulSet).written = some written) (ready : written.ready = true) :
    ∃ fs, observed.fleet = .ok fs ∧ 1 ≤ (statefulSetReplicas statefulSet).2 ∧
      (statefulSetReplicas statefulSet).2 ≤ fs.nodes.countP fs.acked := by
  unfold settle at writes
  dsimp only at writes
  split at writes
  · rename_i passed
    rw [Bool.and_eq_true] at passed
    obtain ⟨childrenReady, committed⟩ := passed
    rw [gate, if_pos childrenReady] at committed
    cases answer : observed.fleet with
    | error err =>
      rw [answer] at committed
      cases committed
    | ok fs =>
      rw [answer] at committed
      simp only [Bool.and_eq_true, decide_eq_true_eq] at childrenReady
      exact ⟨fs, rfl, childrenReady.2 ▸ childrenReady.1.2, (fs.committed_iff _).mp committed⟩
  · obtain rfl := write_written writes
    rw [GatewayStatus.setCondition_ready, if_pos rfl] at ready
    cases ready

theorem reconcile_ready {written : GatewayStatus} (writes : (gw.reconcile render observed).written = some written)
    (ready : written.ready = true) :
    ∃ statefulSet fs, observed.statefulSet = .ok statefulSet ∧ observed.fleet = .ok fs ∧
      1 ≤ (statefulSetReplicas statefulSet).2 ∧ (statefulSetReplicas statefulSet).2 ≤ fs.nodes.countP fs.acked := by
  unfold reconcile at writes
  cases ensured : gw.ensure render observed with
  | error problem =>
    rw [ensured] at writes
    rw [fail_not_ready writes] at ready
    cases ready
  | ok rendered =>
    rw [ensured] at writes
    cases ctl : observed.ctl with
    | error err =>
      rw [ctl] at writes
      cases writes
    | ok dep =>
      rw [ctl] at writes
      cases read : observed.statefulSet with
      | error err =>
        rw [read] at writes
        cases writes
      | ok statefulSet =>
        rw [read] at writes
        obtain ⟨fs, answer, some, enough⟩ := settle_ready writes ready
        exact ⟨statefulSet, fs, rfl, answer, some, enough⟩

variable {texts : RenderTexts}

theorem Produced.unique {config : Config} {first second : String} (one : Produced texts render config first)
    (two : Produced texts render config second) : first = second := by
  obtain ⟨result, commit, rendered, renders, composes, rfl⟩ := one
  obtain ⟨result', commit', rendered', renders', composes', rfl⟩ := two
  obtain rfl := Except.ok.inj (renders.symm.trans renders')
  obtain ⟨flat, flattened, rfl⟩ := Fallible.map_ok.mp composes
  obtain ⟨flat', flattened', rfl⟩ := Fallible.map_ok.mp composes'
  obtain rfl := Except.ok.inj (flattened.symm.trans flattened')
  rfl

theorem exists_healthy_iff {fs : FleetStatus} {nodeId : String} :
    (∃ status ∈ fs.nodeStatuses, status.nodeId = nodeId ∧ status.healthy = true) ↔
      ∃ node ∈ fs.nodes, node.nodeId = nodeId ∧ fs.acked node = true := by
  simp [FleetStatus.nodeStatuses]

/-- Where some node acknowledged the applied render, what the gate does not ask is what makes Ready sound. -/
theorem sound_iff_unasked {fs : FleetStatus} (some : 0 < fs.nodes.countP fs.acked) :
    gw.Sound render texts fs ↔ gw.Unasked render texts fs := by
  constructor
  · rintro ⟨desired, connected⟩
    obtain ⟨node, listed, acked⟩ := List.countP_pos_iff.mp some
    obtain ⟨isConnected, hash⟩ := FleetStatus.acked_iff.mp acked
    have applied := connected node listed isConnected fs.renderHash hash
    refine ⟨applied, fun other present isConnected hash acknowledged => ?_, fun ordinal bound => ?_⟩
    · exact (connected other present isConnected hash acknowledged).unique applied
    · obtain ⟨other, present, named, isConnected, hash, acknowledged, produced⟩ := desired ordinal bound
      obtain rfl := produced.unique applied
      exact exists_healthy_iff.mpr ⟨other, present, named, FleetStatus.acked_iff.mpr ⟨isConnected, acknowledged⟩⟩
  · rintro ⟨applied, settled, present⟩
    refine ⟨fun ordinal bound => ?_, fun node listed isConnected hash acknowledged => ?_⟩
    · obtain ⟨node, listed, named, acked⟩ := exists_healthy_iff.mp (present ordinal bound)
      obtain ⟨isConnected, acknowledged⟩ := FleetStatus.acked_iff.mp acked
      exact ⟨node, listed, named, isConnected, fs.renderHash, acknowledged, applied⟩
    · exact settled node listed isConnected hash acknowledged ▸ applied

/-- A control plane lists a node once. -/
theorem statusJson_nodup (renderHash sourceCommit : String) (committedVersion : Nat) (store : RuntimeStore) :
    ((statusJson renderHash sourceCommit committedVersion store).nodes.map (·.nodeId)).Nodup := by
  have ids : (statusJson renderHash sourceCommit committedVersion store).nodes.map (·.nodeId) = store.nodes.keys := by
    rw [statusJson, List.map_map, ← Std.TreeMap.map_fst_toList_eq_keys]
    rfl
  rw [ids]
  exact Std.TreeMap.nodup_keys

/-- Where only the nodes of the spec's data planes are connected, as many as there are of them are all of them. -/
theorem unasked_of_own {fs : FleetStatus} (applied : Produced texts render gw.config fs.renderHash)
    (distinct : (fs.nodes.map (·.nodeId)).Nodup)
    (own : ∀ node ∈ fs.nodes, node.connected = true →
      ∃ ordinal < (dataPlaneTopology gw.dataPlanes).1, node.nodeId = gw.nodeName ordinal)
    (enough : (dataPlaneTopology gw.dataPlanes).1 ≤ fs.nodes.countP fs.acked) : gw.Unasked render texts fs := by
  -- The acknowledging nodes are as many as the ordinals, and each is the node of one.
  have all : ((fs.nodes.filter fs.acked).map (·.nodeId)).Perm
      ((List.range (dataPlaneTopology gw.dataPlanes).1).map gw.nodeName) := by
    have once : ((fs.nodes.filter fs.acked).map (·.nodeId)).Nodup :=
      distinct.sublist (List.filter_sublist.map _)
    refine (once.subperm fun nodeId listed => ?_).perm_of_length_le ?_
    · obtain ⟨node, acked, rfl⟩ := List.mem_map.mp listed
      obtain ⟨present, acked⟩ := List.mem_filter.mp acked
      obtain ⟨ordinal, bound, named⟩ := own node present (FleetStatus.acked_iff.mp acked).1
      exact List.mem_map.mpr ⟨ordinal, List.mem_range.mpr bound, named.symm⟩
    · rw [List.length_map, List.length_map, List.length_range, ← List.countP_eq_length_filter]
      exact enough
  have healthy (ordinal : Nat) (bound : ordinal < (dataPlaneTopology gw.dataPlanes).1) :
      ∃ node ∈ fs.nodes, node.nodeId = gw.nodeName ordinal ∧ fs.acked node = true := by
    have listed := all.mem_iff.mpr (List.mem_map_of_mem (f := gw.nodeName) (List.mem_range.mpr bound))
    obtain ⟨node, acked, named⟩ := List.mem_map.mp listed
    obtain ⟨present, acked⟩ := List.mem_filter.mp acked
    exact ⟨node, present, named, acked⟩
  refine ⟨applied, fun node listed isConnected hash acknowledged => ?_, fun ordinal bound => ?_⟩
  · obtain ⟨ordinal, bound, named⟩ := own node listed isConnected
    obtain ⟨other, present, same, acked⟩ := healthy ordinal bound
    obtain rfl := List.inj_on_of_nodup_map distinct listed present (named.trans same.symm)
    exact Option.some.inj (acknowledged.symm.trans (FleetStatus.acked_iff.mp acked).2)
  · exact exists_healthy_iff.mpr (healthy ordinal bound)

/-- Ready is sound where a control plane answers that applies a render of the spec and that only the nodes of the spec's
    data planes are connected to, and where the stateful set is that of the spec. -/
theorem ready_sound_of_own {written : GatewayStatus} (writes : (gw.reconcile render observed).written = some written)
    (ready : written.ready = true) {renderHash sourceCommit : String} {committedVersion : Nat} {store : RuntimeStore}
    (answer : observed.fleet = .ok (statusJson renderHash sourceCommit committedVersion store))
    (applied : Produced texts render gw.config renderHash)
    (own : ∀ nodeId node, store.nodes[nodeId]? = some node → node.connected = true →
      ∃ ordinal < (dataPlaneTopology gw.dataPlanes).1, nodeId = gw.nodeName ordinal)
    (current : ∀ statefulSet, observed.statefulSet = .ok statefulSet →
      (statefulSetReplicas statefulSet).2 = (dataPlaneTopology gw.dataPlanes).1) :
    gw.Sound render texts (statusJson renderHash sourceCommit committedVersion store) := by
  obtain ⟨statefulSet, fs, read, answered, replicas, enough⟩ := reconcile_ready writes ready
  obtain rfl := Except.ok.inj (answer.symm.trans answered)
  have same := current statefulSet read
  refine (sound_iff_unasked (by omega)).mpr (unasked_of_own applied (statusJson_nodup ..) ?_ (by omega))
  intro node listed isConnected
  obtain ⟨⟨nodeId, known⟩, present, rfl⟩ := List.mem_map.mp listed
  exact own nodeId known (Std.TreeMap.mem_toList_iff_getElem?_eq_some.mp present) isConnected

/-- The repo of a spec that names its one route. -/
def routeRepo (route : String) : Except String RenderResult :=
  .ok ⟨[("routes/" ++ route ++ ".route.yaml", [])], route⟩

/-- Renders in which the paths of the files stand for what is in them. -/
def pathsAsConfig : RenderTexts := ⟨fun files _ => .ok (String.join (files.map (·.1))), id⟩

def newRoute : LLMGateway String := ⟨"gw", 2, "new", none, ⟨1, "old", "1/1", true, [], []⟩⟩

/-- A store of nodes that are connected, each with the hash that it acknowledged. -/
def acknowledged (nodes : List (String × String)) : RuntimeStore :=
  nodes.foldl (fun store node => (store.connect node.1 ∅).recordAck node.1 1 node.2) .new

/-- All workloads are up, and a control plane answers. -/
def answered (renderHash : String) (nodes : List (String × String)) : Observed :=
  ⟨.ok (), .ok (), .ok (), .ok (), .ok (some ⟨some 1, 1⟩), .ok (some ⟨some 1, 1⟩),
    .ok (statusJson renderHash "" 1 (acknowledged nodes)), .ok ()⟩

/-- What is written once the data plane acknowledged the new render. -/
def writtenReady : GatewayStatus :=
  ⟨2, "new", "1/1", true,
    [⟨"Ready", true, "FleetCommitted", "all 1 data plane(s) acked the applied render", 2⟩,
      ⟨"Degraded", false, "Healthy", "", 2⟩],
    [⟨"gw-gatewayd-0", 1, "routes/new.route.yaml", true⟩]⟩

theorem old_not_produced : ¬ Produced pathsAsConfig routeRepo "new" "routes/old.route.yaml" := by
  rintro ⟨result, commit, rendered, renders, composes, same⟩
  obtain rfl := Except.ok.inj renders
  obtain rfl := Except.ok.inj composes
  simp [RenderTexts.finalize, pathsAsConfig, String.join] at same

end LLMGateway

end SmallGateway
