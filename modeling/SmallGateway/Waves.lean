import Mathlib.Data.List.Sort
import SmallGateway.RuntimeStore

/-!
The ordered waves of a rollout (`gatewayctl/src/waves.rs`). A wave is a name and a selector over node labels; a
node belongs to the first wave whose selector matches its labels, and to an implicit final wave when none does.
-/

namespace SmallGateway

/-- One term of a selector: the label's value is one of these. -/
structure SelectorTerm where
  label : String
  inValues : List String
  deriving DecidableEq

def SelectorTerm.matches (term : SelectorTerm) (labels : Labels) : Bool :=
  match labels[term.label]? with
  | some value => term.inValues.contains value
  | none => false

/-- The conjunction of its terms; without terms it matches every node. -/
structure Selector where
  terms : List SelectorTerm
  deriving DecidableEq

def Selector.everything : Selector := ⟨[]⟩

def Selector.matches (selector : Selector) (labels : Labels) : Bool := selector.terms.all (·.matches labels)

structure Wave where
  name : String
  selector : Selector
  deriving DecidableEq

structure WavePlan where
  waves : List Wave
  deriving DecidableEq

/-- One wave's assignment: its name and the nodes that landed in it. -/
structure AssignedWave where
  name : String
  nodeIds : List String
  deriving DecidableEq

/-- The name of the wave of the nodes that match none. -/
def implicitFinalWave : String := "implicit-final"

namespace WavePlan

/-- One wave that matches every node. -/
def single : WavePlan := ⟨[⟨"all", .everything⟩]⟩

/-- The configured wave a node belongs to, by its place. -/
def position (plan : WavePlan) (labels : Labels) : Option Nat :=
  plan.waves.findIdx? (·.selector.matches labels)

/-- The place of a node's wave, where the implicit final wave comes after all configured ones. -/
def waveIndexFor (plan : WavePlan) (labels : Labels) : Nat := (plan.position labels).getD plan.waves.length

/-- The name of a node's wave. -/
def waveNameFor (plan : WavePlan) (labels : Labels) : String :=
  (plan.waves[plan.waveIndexFor labels]?.map (·.name)).getD implicitFinalWave

/-- The nodes of every configured wave in plan order, and of the implicit final wave when it has any. Within a
    wave the nodes are ordered by id. -/
def assign (plan : WavePlan) (nodes : List (String × Labels)) : List AssignedWave :=
  let sorted := nodes.insertionSort fun a b => a.1 ≤ b.1
  let bucket (place : Option Nat) : List String :=
    (sorted.filter fun node => plan.position node.2 == place).map (·.1)
  let configured := plan.waves.zipIdx.map fun (wave, idx) => (⟨wave.name, bucket (some idx)⟩ : AssignedWave)
  let unmatched := bucket none
  if unmatched.isEmpty then configured else configured ++ [⟨implicitFinalWave, unmatched⟩]

/-- The names of all waves in order, the implicit final one included. -/
def names (plan : WavePlan) : List String := plan.waves.map (·.name) ++ [implicitFinalWave]

theorem waveIndexFor_le (plan : WavePlan) (labels : Labels) : plan.waveIndexFor labels ≤ plan.waves.length := by
  unfold waveIndexFor position
  cases found : plan.waves.findIdx? (·.selector.matches labels) with
  | none => simp
  | some place =>
    have := (List.findIdx?_eq_some_iff_getElem.mp found).1
    simp only [Option.getD_some]
    omega

/-- A node's wave is named by its place. -/
theorem waveNameFor_names (plan : WavePlan) (labels : Labels) :
    plan.names[plan.waveIndexFor labels]? = some (plan.waveNameFor labels) := by
  have bound := plan.waveIndexFor_le labels
  unfold waveNameFor names
  by_cases configured : plan.waveIndexFor labels < plan.waves.length
  · rw [List.getElem?_append_left (by simpa using configured)]
    simp [configured]
  · have last : plan.waveIndexFor labels = plan.waves.length := by omega
    simp [last]

/-- The assigned waves carry the names of the plan in order. -/
theorem assign_names (plan : WavePlan) (nodes : List (String × Labels)) :
    (plan.assign nodes).map (·.name) <+: plan.names := by
  have configured (assigned : Wave × Nat → AssignedWave) (named : ∀ entry, (assigned entry).name = entry.1.name) :
      (plan.waves.zipIdx.map assigned).map (·.name) = plan.waves.map (·.name) := by
    have projected : (·.name) ∘ assigned = (·.name) ∘ Prod.fst := funext named
    rw [List.map_map, projected, ← List.map_map, List.zipIdx_map_fst]
  unfold assign
  dsimp only
  split
  · rw [configured _ fun _ => rfl]
    exact List.prefix_append _ _
  · rw [List.map_append, configured _ fun _ => rfl]
    exact List.prefix_rfl

/-- The nodes of a wave are the connected nodes that belong to one place of the plan. -/
theorem assign_nodeIds {plan : WavePlan} {nodes : List (String × Labels)} {wave : AssignedWave}
    (assigned : wave ∈ plan.assign nodes) :
    ∃ place : Option Nat, wave.nodeIds =
      ((nodes.insertionSort fun a b => a.1 ≤ b.1).filter fun node => plan.position node.2 == place).map (·.1) := by
  unfold assign at assigned
  dsimp only at assigned
  split at assigned
  · obtain ⟨⟨configured, idx⟩, -, rfl⟩ := List.mem_map.mp assigned
    exact ⟨some idx, rfl⟩
  · rcases List.mem_append.mp assigned with inPlan | unmatched
    · obtain ⟨⟨configured, idx⟩, -, rfl⟩ := List.mem_map.mp inPlan
      exact ⟨some idx, rfl⟩
    · obtain rfl := List.mem_singleton.mp unmatched
      exact ⟨none, rfl⟩

/-- No node is twice in a wave when none is connected twice. -/
theorem assign_nodup {plan : WavePlan} {nodes : List (String × Labels)} (distinct : (nodes.map (·.1)).Nodup)
    {wave : AssignedWave} (assigned : wave ∈ plan.assign nodes) : wave.nodeIds.Nodup := by
  obtain ⟨place, ids⟩ := assign_nodeIds assigned
  have sorted : ((nodes.insertionSort fun a b => a.1 ≤ b.1).map (·.1)).Nodup :=
    ((List.perm_insertionSort _ nodes).map _).nodup_iff.mpr distinct
  rw [ids]
  exact sorted.sublist (List.filter_sublist.map _)

end WavePlan

end SmallGateway
