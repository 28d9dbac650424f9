import Std.Data.TreeMap.Lemmas
import Mathlib.Algebra.Group.Nat.Defs

/-!
What the control plane last heard from its nodes (`gatewayctl/src/store.rs`). The store holds what was observed
and nothing that is desired.
-/

namespace SmallGateway

/-- A node's labels. -/
abbrev Labels := Std.TreeMap String String

structure NodeState where
  labels : Labels
  lastAckedVersion : Option Nat
  lastAckedHash : Option String
  lastNack : Option (Nat × String)
  consecutiveNacks : Nat
  observedHash : Option String
  connected : Bool
  /-- The second at which the node's break-glass window expires. -/
  breakGlassUntil : Option Nat

def NodeState.new (labels : Labels) : NodeState := ⟨labels, none, none, none, 0, none, true, none⟩

def NodeState.breakGlassActive (node : NodeState) (now : Nat) : Bool :=
  node.breakGlassUntil.any fun expiry => decide (now < expiry)

structure RuntimeStore where
  nodes : Std.TreeMap String NodeState

namespace RuntimeStore

def new : RuntimeStore := ⟨∅⟩

/-- Changes what is known of a node that is known. -/
def update (store : RuntimeStore) (nodeId : String) (change : NodeState → NodeState) : RuntimeStore :=
  match store.nodes[nodeId]? with
  | none => store
  | some node => ⟨store.nodes.insert nodeId (change node)⟩

/-- A node joins or comes back: what is known of it is kept, its labels are replaced. -/
def connect (store : RuntimeStore) (nodeId : String) (labels : Labels) : RuntimeStore :=
  match store.nodes[nodeId]? with
  | some node => ⟨store.nodes.insert nodeId { node with labels, connected := true }⟩
  | none => ⟨store.nodes.insert nodeId (.new labels)⟩

def disconnect (store : RuntimeStore) (nodeId : String) : RuntimeStore :=
  store.update nodeId fun node => { node with connected := false }

/-- An acknowledgement ends the node's refusals. -/
def recordAck (store : RuntimeStore) (nodeId : String) (version : Nat) (hash : String) : RuntimeStore :=
  store.update nodeId fun node =>
    { node with
      lastAckedVersion := some version, lastAckedHash := some hash, lastNack := none, consecutiveNacks := 0 }

/-- A refusal counts; the counter saturates at 32 bits. -/
def recordNack (store : RuntimeStore) (nodeId : String) (version : Nat) (reason : String) : RuntimeStore :=
  store.update nodeId fun node =>
    { node with
      lastNack := some (version, reason)
      consecutiveNacks := min (node.consecutiveNacks + 1) (2 ^ 32 - 1) }

def recordStatus (store : RuntimeStore) (nodeId observedHash : String) : RuntimeStore :=
  store.update nodeId fun node => { node with observedHash := some observedHash }

def setBreakGlass (store : RuntimeStore) (nodeId : String) (expiry : Nat) : RuntimeStore :=
  store.update nodeId fun node => { node with breakGlassUntil := some expiry }

def isConnected (store : RuntimeStore) (nodeId : String) : Bool := store.nodes[nodeId]?.any (·.connected)

/-- What is known of the connected nodes, by id. -/
def connectedNodes (store : RuntimeStore) : List (String × NodeState) :=
  store.nodes.toList.filter fun (_, node) => node.connected

theorem update_other (store : RuntimeStore) {nodeId other : String} (change : NodeState → NodeState)
    (different : other ≠ nodeId) : (store.update nodeId change).nodes[other]? = store.nodes[other]? := by
  unfold update
  split
  · rfl
  · simp [Std.TreeMap.getElem?_insert, different.symm]

theorem update_same (store : RuntimeStore) (nodeId : String) (change : NodeState → NodeState) :
    (store.update nodeId change).nodes[nodeId]? = store.nodes[nodeId]?.map change := by
  unfold update
  cases known : store.nodes[nodeId]? with
  | none => simp [known]
  | some node => simp

/-- A change that leaves the connection alone leaves every connection alone. -/
theorem update_isConnected (store : RuntimeStore) (nodeId other : String) {change : NodeState → NodeState}
    (keeps : ∀ node, (change node).connected = node.connected) :
    (store.update nodeId change).isConnected other = store.isConnected other := by
  unfold isConnected
  by_cases same : other = nodeId
  · subst same
    rw [update_same]
    cases store.nodes[other]? <;> simp [keeps]
  · rw [update_other store change same]

/-- A change of what a node reports leaves every node its labels. -/
theorem update_labels (store : RuntimeStore) (nodeId other : String) {change : NodeState → NodeState}
    (keeps : ∀ node, (change node).labels = node.labels) :
    (store.update nodeId change).nodes[other]?.map NodeState.labels = store.nodes[other]?.map NodeState.labels := by
  by_cases same : other = nodeId
  · subst same
    rw [update_same, Option.map_map]
    exact Option.map_congr fun node _ => keeps node
  · rw [update_other store change same]

theorem connect_other (store : RuntimeStore) {nodeId other : String} (labels : Labels)
    (different : other ≠ nodeId) : (store.connect nodeId labels).nodes[other]? = store.nodes[other]? := by
  unfold connect
  split <;> simp [Std.TreeMap.getElem?_insert, different.symm]

theorem connect_labels (store : RuntimeStore) (nodeId : String) (labels : Labels) :
    (store.connect nodeId labels).nodes[nodeId]?.map NodeState.labels = some labels := by
  unfold connect
  split <;> simp [NodeState.new]

theorem connect_isConnected (store : RuntimeStore) (nodeId other : String) (labels : Labels) :
    (store.connect nodeId labels).isConnected other = (other == nodeId || store.isConnected other) := by
  by_cases same : other = nodeId
  · subst same
    unfold connect isConnected
    split <;> simp [NodeState.new]
  · have unchanged := connect_other store labels same
    have unequal : (other == nodeId) = false := by simpa using same
    unfold isConnected
    rw [unchanged, unequal, Bool.false_or]

theorem disconnect_isConnected (store : RuntimeStore) (nodeId other : String) :
    (store.disconnect nodeId).isConnected other = (other != nodeId && store.isConnected other) := by
  unfold disconnect isConnected
  by_cases same : other = nodeId
  · subst same
    rw [update_same]
    cases store.nodes[other]? <;> simp
  · have unequal : (other != nodeId) = true := by simpa using same
    rw [update_other store _ same, unequal, Bool.true_and]

end RuntimeStore

end SmallGateway
