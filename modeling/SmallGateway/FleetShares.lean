import Mathlib.Algebra.BigOperators.Field
import Mathlib.Algebra.Order.Floor.Semifield
import Mathlib.Data.Fintype.EquivFin
import SmallGateway.FleetBudgets
import SmallGateway.Lib.Maps

/-!
How the control plane divides a cap (`gatewayctl/src/budget.rs`: `shares_for`, `share_for_node`). The shares of the
nodes that have reported for the cap sum to at most the cap, in exact arithmetic, whatever they have spent. A node
that has not reported is granted the floor of a cold one without being counted among them, so over all nodes the
cap is conserved exactly when that floor is nothing (`shares_conserved_iff`).
-/

namespace SmallGateway

namespace CapState

/-- The nodes among which floors are divided. -/
def nodeCount (entry : CapState) : Nat := max entry.perNodeSpend.size 1

/-- The nodes that have reported no spend. -/
def coldCount (entry : CapState) : Nat := entry.perNodeSpend.values.countP (· = 0)

/-- What is granted to a node without spend, known or not. -/
def coldShare (entry : CapState) : Nat :=
  if entry.cap = 0 then 0
  else if entry.totalSpend = 0 then ⌊(entry.cap : ℚ) * coldNodeFloorFraction / entry.nodeCount⌋₊
  else if entry.coldCount = 0 then 0
  else ⌊((entry.cap - entry.totalSpend : Nat) : ℚ) * coldNodeFloorFraction / entry.nodeCount⌋₊

/-- What the nodes with spend divide. -/
def hotPool (entry : CapState) : Nat := entry.cap - min (entry.coldShare * entry.coldCount) u64Max

/-- The floor of a cold node comes to nothing: the cap, or what is left of it where some node has spent, is less
    than ten tokens for each node counted. -/
def FloorIsNothing (entry : CapState) : Prop :=
  if entry.totalSpend = 0 then entry.cap < 10 * entry.nodeCount
  else entry.coldCount = 0 ∨ entry.cap - entry.totalSpend < 10 * entry.nodeCount

instance (entry : CapState) : Decidable entry.FloorIsNothing := by
  unfold FloorIsNothing
  infer_instance

theorem nodeCount_pos (entry : CapState) : 0 < entry.nodeCount := by
  unfold nodeCount
  omega

theorem floor_tenth_eq (tokens : Nat) (count : Nat) :
    ⌊(tokens : ℚ) * coldNodeFloorFraction / count⌋₊ = tokens / 10 / count := by
  have tenth : (tokens : ℚ) * coldNodeFloorFraction = tokens / (10 : ℕ) := by
    unfold coldNodeFloorFraction
    push_cast
    ring
  rw [tenth, Nat.floor_div_natCast, Nat.floor_div_natCast, Nat.floor_natCast]

/-- The floor in whole numbers. -/
theorem coldShare_eq (entry : CapState) :
    entry.coldShare =
      if entry.totalSpend = 0 then entry.cap / 10 / entry.nodeCount
      else if entry.coldCount = 0 then 0
      else (entry.cap - entry.totalSpend) / 10 / entry.nodeCount := by
  unfold coldShare
  rw [floor_tenth_eq, floor_tenth_eq]
  split
  · rename_i uncapped
    simp [uncapped]
  · rfl

theorem coldShare_eq_zero_iff (entry : CapState) : entry.coldShare = 0 ↔ entry.FloorIsNothing := by
  have positive := entry.nodeCount_pos
  have small (tokens : Nat) : tokens / 10 / entry.nodeCount = 0 ↔ tokens < 10 * entry.nodeCount := by
    rw [Nat.div_div_eq_div_mul, Nat.div_eq_zero_iff]
    omega
  rw [coldShare_eq, FloorIsNothing]
  split
  · exact small _
  · split
    · rename_i none
      simp [none]
    · rename_i some
      rw [small]
      simp [some]

/-- All cold floors together are at most a tenth of the cap. -/
theorem coldShare_mul_le (entry : CapState) {count : Nat} (counted : count ≤ entry.nodeCount) :
    entry.coldShare * count ≤ entry.cap / 10 := by
  have bounded (tokens : Nat) : tokens / 10 / entry.nodeCount * count ≤ tokens / 10 :=
    (Nat.mul_le_mul_left _ counted).trans (Nat.div_mul_le_self _ _)
  rw [coldShare_eq]
  split
  · exact bounded _
  · split
    · simp
    · refine (bounded _).trans (Nat.div_le_div_right ?_)
      omega

theorem coldCount_le (entry : CapState) : entry.coldCount ≤ entry.nodeCount := by
  unfold coldCount nodeCount
  refine List.countP_le_length.trans ?_
  rw [Maps.length_values]
  exact Nat.le_max_left _ _

/-- Some nodes that have reported are no more than the nodes that are counted. -/
theorem card_le_nodeCount {entry : CapState} {nodes : Finset String}
    (known : ∀ nodeId ∈ nodes, nodeId ∈ entry.perNodeSpend) : nodes.card ≤ entry.nodeCount := by
  have counted := Maps.sum_le_sum_values entry.perNodeSpend nodes known (fun _ => 1) 0
  rw [← Finset.card_eq_sum_ones, List.map_const', List.sum_replicate_nat, Maps.length_values, Nat.mul_one] at counted
  exact counted.trans (Nat.le_max_left _ _)

/-- Some nodes that have reported hold no more cold ones than are counted. -/
theorem card_cold_le {entry : CapState} {nodes : Finset String}
    (known : ∀ nodeId ∈ nodes, nodeId ∈ entry.perNodeSpend) :
    (nodes.filter fun nodeId => entry.perNodeSpend[nodeId]?.getD 0 = 0).card ≤ entry.coldCount := by
  have counted := Maps.sum_le_sum_values entry.perNodeSpend nodes known (fun spent => if spent = 0 then 1 else 0) 0
  have values : (entry.perNodeSpend.values.map fun spent => if spent = 0 then 1 else 0).sum = entry.coldCount := by
    unfold coldCount
    induction entry.perNodeSpend.values with
    | nil => rfl
    | cons spent rest ih =>
      rw [List.map_cons, List.sum_cons, ih, List.countP_cons]
      by_cases zero : spent = 0 <;> simp [zero, Nat.add_comm]
  rw [values] at counted
  rw [Finset.card_filter]
  exact counted

end CapState

namespace FleetBudgets

/-- A share is the floor of a cold node or a slice of the pool by spend. -/
theorem shareForNode_eq (nodeId : String) (entry : CapState) :
    shareForNode nodeId entry =
      if entry.perNodeSpend[nodeId]?.getD 0 = 0 then min entry.coldShare entry.cap
      else if entry.cap = 0 then 0
      else if entry.totalSpend = 0 then min entry.coldShare entry.cap
      else min ⌊(entry.hotPool : ℚ) * ((entry.perNodeSpend[nodeId]?.getD 0 : Nat) / entry.totalSpend)⌋₊ entry.cap := by
  have floor_le : entry.coldShare ≤ entry.cap := by
    have bounded := entry.coldShare_mul_le entry.nodeCount_pos
    omega
  unfold shareForNode CapState.hotPool
  by_cases uncapped : entry.cap = 0
  · simp [uncapped]
  by_cases unspent : entry.totalSpend = 0
  · have floor : entry.coldShare = ⌊(entry.cap : ℚ) * coldNodeFloorFraction / entry.nodeCount⌋₊ := by
      simp [CapState.coldShare, uncapped, unspent]
    simp only [uncapped, unspent, if_false, if_true, ite_self, Nat.min_eq_left floor_le]
    exact floor.symm
  · have floor : (if entry.coldCount = 0 then 0
        else ⌊((entry.cap - entry.totalSpend : Nat) : ℚ) * coldNodeFloorFraction / entry.nodeCount⌋₊) =
        entry.coldShare := by
      simp [CapState.coldShare, uncapped, unspent]
    simp only [uncapped, unspent, if_false]
    rw [← floor]
    rfl

/-- The slices of a pool by weight sum to at most the pool, when the weights sum to at most their total. -/
theorem sum_slices_le {ι : Type*} (nodes : Finset ι) (weight : ι → Nat) {total : Nat}
    (weights : ∑ node ∈ nodes, weight node ≤ total) (pool : Nat) :
    ∑ node ∈ nodes, ⌊(pool : ℚ) * ((weight node : Nat) / total)⌋₊ ≤ pool := by
  have fraction : ((∑ node ∈ nodes, weight node : Nat) : ℚ) / total ≤ 1 := by
    have bound : ((∑ node ∈ nodes, weight node : Nat) : ℚ) ≤ total := by exact_mod_cast weights
    exact div_le_one_of_le₀ bound (Nat.cast_nonneg total)
  have exact : ((∑ node ∈ nodes, ⌊(pool : ℚ) * ((weight node : Nat) / total)⌋₊ : Nat) : ℚ) ≤ pool := by
    calc ((∑ node ∈ nodes, ⌊(pool : ℚ) * ((weight node : Nat) / total)⌋₊ : Nat) : ℚ)
        = ∑ node ∈ nodes, (⌊(pool : ℚ) * ((weight node : Nat) / total)⌋₊ : ℚ) := Nat.cast_sum _ _
      _ ≤ ∑ node ∈ nodes, (pool : ℚ) * ((weight node : Nat) / total) :=
          Finset.sum_le_sum fun node _ => Nat.floor_le (by positivity)
      _ = pool * (((∑ node ∈ nodes, weight node : Nat) : ℚ) / total) := by
          rw [← Finset.mul_sum, ← Finset.sum_div, Nat.cast_sum]
      _ ≤ pool := mul_le_of_le_one_right (Nat.cast_nonneg pool) fraction
  exact_mod_cast exact

/-- The nodes that have reported are granted at most the cap together. -/
theorem known_shares_le {entry : CapState} (fits : entry.cap ≤ u64Max) (nodes : Finset String)
    (known : ∀ nodeId ∈ nodes, nodeId ∈ entry.perNodeSpend) :
    ∑ nodeId ∈ nodes, shareForNode nodeId entry ≤ entry.cap := by
  let spend (nodeId : String) : Nat := entry.perNodeSpend[nodeId]?.getD 0
  by_cases unspent : entry.totalSpend = 0
  · -- A cold fleet: every node gets the floor.
    have floors : ∀ nodeId ∈ nodes, shareForNode nodeId entry ≤ entry.coldShare := by
      intro nodeId _
      rw [shareForNode_eq]
      split
      · exact Nat.min_le_left _ _
      · split
        · exact Nat.zero_le _
        · exact Nat.min_le_left _ _
    have bounded := entry.coldShare_mul_le (CapState.card_le_nodeCount known)
    calc ∑ nodeId ∈ nodes, shareForNode nodeId entry
        ≤ ∑ _nodeId ∈ nodes, entry.coldShare := Finset.sum_le_sum floors
      _ = entry.coldShare * nodes.card := by rw [Finset.sum_const_nat fun _ _ => rfl, Nat.mul_comm]
      _ ≤ entry.cap := by omega
  · -- A mixed fleet: the cold nodes get their floors, the hot ones slices of what these leave.
    let cold := nodes.filter fun nodeId => spend nodeId = 0
    let hot := nodes.filter fun nodeId => ¬ spend nodeId = 0
    have reserved := entry.coldShare_mul_le entry.coldCount_le
    have unsaturated : min (entry.coldShare * entry.coldCount) u64Max = entry.coldShare * entry.coldCount := by
      rw [Nat.min_eq_left]
      omega
    have floors : ∑ nodeId ∈ cold, shareForNode nodeId entry ≤ entry.coldShare * entry.coldCount := by
      have each : ∀ nodeId ∈ cold, shareForNode nodeId entry ≤ entry.coldShare := by
        intro nodeId member
        have zero : entry.perNodeSpend[nodeId]?.getD 0 = 0 := (Finset.mem_filter.mp member).2
        rw [shareForNode_eq, if_pos zero]
        exact Nat.min_le_left _ _
      calc ∑ nodeId ∈ cold, shareForNode nodeId entry
          ≤ ∑ _nodeId ∈ cold, entry.coldShare := Finset.sum_le_sum each
        _ = entry.coldShare * cold.card := by rw [Finset.sum_const_nat fun _ _ => rfl, Nat.mul_comm]
        _ ≤ entry.coldShare * entry.coldCount := Nat.mul_le_mul_left _ (CapState.card_cold_le known)
    have slices : ∑ nodeId ∈ hot, shareForNode nodeId entry ≤ entry.hotPool := by
      have each : ∀ nodeId ∈ hot, shareForNode nodeId entry ≤
          ⌊(entry.hotPool : ℚ) * ((spend nodeId : Nat) / entry.totalSpend)⌋₊ := by
        intro nodeId member
        have spent : ¬ entry.perNodeSpend[nodeId]?.getD 0 = 0 := (Finset.mem_filter.mp member).2
        rw [shareForNode_eq, if_neg spent]
        split
        · exact Nat.zero_le _
        · exact Nat.min_le_left _ _
      have weights : ∑ nodeId ∈ hot, spend nodeId ≤ entry.totalSpend := by
        have all := Maps.sum_le_sum_values entry.perNodeSpend nodes known id 0
        rw [List.map_id] at all
        exact (Finset.sum_le_sum_of_subset (Finset.filter_subset _ _)).trans all
      exact (Finset.sum_le_sum each).trans (sum_slices_le hot spend weights entry.hotPool)
    have split : ∑ nodeId ∈ nodes, shareForNode nodeId entry =
        ∑ nodeId ∈ cold, shareForNode nodeId entry + ∑ nodeId ∈ hot, shareForNode nodeId entry :=
      (Finset.sum_filter_add_sum_filter_not nodes _ _).symm
    unfold CapState.hotPool at slices
    rw [unsaturated] at slices
    omega

/-! ### Over every ledger -/

/-- What is done to the ledger: a cap is learnt, a node reports, a node leaves. -/
inductive Update
  | observe (id : CapId) (cap : Nat)
  | report (nodeId : String) (id : CapId) (cap spent : Nat)
  | forget (nodeId : String)
  deriving DecidableEq

/-- The cap that comes with an update. -/
def Update.cap : Update → Nat
  | .observe _ cap => cap
  | .report _ _ cap _ => cap
  | .forget _ => 0

def apply (budgets : FleetBudgets) : Update → FleetBudgets
  | .observe id cap => budgets.observeCap id cap
  | .report nodeId id cap spent => (budgets.reportSpend nodeId id cap spent).2
  | .forget nodeId => budgets.forgetNode nodeId

/-- The ledger after some updates. -/
def after (updates : List Update) : FleetBudgets := updates.foldl apply new

/-- What a node is granted of one cap. -/
def granted (budgets : FleetBudgets) (nodeId : String) (id : CapId) : Nat :=
  (((budgets.sharesFor nodeId).find? fun allocation => allocation.id == id).map (·.share)).getD 0

theorem shareForNode_uncapped (nodeId : String) {entry : CapState} (uncapped : entry.cap = 0) :
    shareForNode nodeId entry = 0 := by
  simp [shareForNode, uncapped]

theorem granted_eq (budgets : FleetBudgets) (nodeId : String) (id : CapId) :
    budgets.granted nodeId id = shareForNode nodeId (budgets.capState id) := by
  unfold granted
  cases found : (budgets.sharesFor nodeId).find? fun allocation => allocation.id == id with
  | some allocation =>
    obtain ⟨entry, stored, -, share⟩ := mem_sharesFor (List.mem_of_find?_eq_some found)
    have same : allocation.id = id := by simpa using List.find?_some found
    rw [same] at stored
    simp [share, capState, stored]
  | none =>
    cases stored : budgets.caps[id]? with
    | none => simp [capState, stored, shareForNode, CapState.default]
    | some entry =>
      have uncapped : entry.cap = 0 := by
        by_contra capped
        have listed : (⟨id, entry.cap, shareForNode nodeId entry⟩ : ShareAllocation) ∈ budgets.sharesFor nodeId := by
          refine List.mem_filterMap.mpr ⟨(id, entry), Std.TreeMap.mem_toList_iff_getElem?_eq_some.mpr stored, ?_⟩
          simp [capped]
        simpa using List.find?_eq_none.mp found _ listed
      simp [capState, stored, shareForNode_uncapped nodeId uncapped]

/-- Every cap of the ledger is a `u64`. -/
def Fits (budgets : FleetBudgets) : Prop := ∀ id, (budgets.capState id).cap ≤ u64Max

theorem apply_fits {budgets : FleetBudgets} (fits : budgets.Fits) {update : Update} (small : update.cap ≤ u64Max) :
    (budgets.apply update).Fits := by
  intro other
  cases update with
  | observe id cap =>
    by_cases same : other = id
    · subst same
      have both : max (budgets.capState other).cap cap ≤ u64Max := Nat.max_le.mpr ⟨fits other, small⟩
      simpa [apply, observeCap, capState, put] using both
    · have unchanged : (budgets.observeCap id cap).caps[other]? = budgets.caps[other]? := put_other budgets _ same
      simpa [apply, capState, unchanged] using fits other
  | report nodeId id cap spent =>
    by_cases same : other = id
    · subst same
      obtain ⟨entry, stored, raised, -⟩ := budgets.reportSpend_entry nodeId other cap spent
      have both : max (budgets.capState other).cap cap ≤ u64Max := Nat.max_le.mpr ⟨fits other, small⟩
      simpa [apply, capState, stored, raised] using both
    · simpa [apply, capState, reportSpend_other budgets nodeId cap spent same] using fits other
  | forget nodeId =>
    have kept : ((budgets.forgetNode nodeId).capState other).cap = (budgets.capState other).cap := by
      unfold capState forgetNode
      rw [Std.TreeMap.getElem?_map]
      cases budgets.caps[other]? <;> rfl
    exact kept.le.trans (fits other)

theorem after_fits {updates : List Update} (small : ∀ update ∈ updates, update.cap ≤ u64Max) :
    (after updates).Fits := by
  have from_ledger : ∀ budgets : FleetBudgets, budgets.Fits → (updates.foldl apply budgets).Fits := by
    induction updates with
    | nil => exact fun _ fits => fits
    | cons update updates ih =>
      intro budgets fits
      rw [List.forall_mem_cons] at small
      exact ih small.2 (budgets.apply update) (apply_fits fits small.1)
  exact from_ledger new fun id => Nat.zero_le _

/-- A node that has not reported for a cap is granted the floor of a cold one. -/
theorem unknown_share {entry : CapState} {nodeId : String} (unknown : nodeId ∉ entry.perNodeSpend) :
    shareForNode nodeId entry = entry.coldShare := by
  have zero : entry.perNodeSpend[nodeId]?.getD 0 = 0 := by simp [Std.TreeMap.getElem?_eq_none unknown]
  have bounded := entry.coldShare_mul_le entry.nodeCount_pos
  rw [shareForNode_eq, if_pos zero, Nat.min_eq_left]
  omega

/-- In every ledger the shares of a cap over any nodes, known to the ledger or not, sum to at most the cap exactly
    when the floor of a cold node is nothing. -/
theorem shares_conserved_iff {updates : List Update} (small : ∀ update ∈ updates, update.cap ≤ u64Max) (id : CapId) :
    (∀ nodes : Finset String, ∑ nodeId ∈ nodes, (after updates).granted nodeId id ≤ ((after updates).capState id).cap) ↔
      ((after updates).capState id).FloorIsNothing := by
  have fits := after_fits small id
  simp only [granted_eq]
  generalize (after updates).capState id = entry at fits ⊢
  rw [← CapState.coldShare_eq_zero_iff]
  constructor
  · -- One node more than the cap has tokens, none of them known, would be granted a token each.
    intro conserved
    by_contra some_floor
    let known := entry.perNodeSpend.keys.toFinset
    obtain ⟨nodes, holds, card⟩ := Infinite.exists_superset_card_eq known (known.card + (entry.cap + 1)) (by omega)
    have floors : ∑ nodeId ∈ nodes \ known, shareForNode nodeId entry = (entry.cap + 1) * entry.coldShare := by
      rw [Finset.sum_const_nat fun nodeId member => ?_, Finset.card_sdiff_of_subset holds, card,
        Nat.add_sub_cancel_left]
      refine unknown_share fun inside => (Finset.mem_sdiff.mp member).2 ?_
      rw [List.mem_toFinset, Std.TreeMap.mem_keys]
      exact inside
    have excess := conserved (nodes \ known)
    rw [floors] at excess
    have least : (entry.cap + 1) * 1 ≤ (entry.cap + 1) * entry.coldShare :=
      Nat.mul_le_mul_left _ (Nat.one_le_iff_ne_zero.mpr some_floor)
    omega
  · intro no_floor nodes
    have unknown_zero : ∑ nodeId ∈ nodes.filter (· ∉ entry.perNodeSpend), shareForNode nodeId entry = 0 := by
      refine Finset.sum_eq_zero fun nodeId member => ?_
      rw [unknown_share (Finset.mem_filter.mp member).2, no_floor]
    have known := known_shares_le fits (nodes.filter (· ∈ entry.perNodeSpend)) fun nodeId member =>
      (Finset.mem_filter.mp member).2
    rw [← Finset.sum_filter_add_sum_filter_not nodes (· ∈ entry.perNodeSpend), unknown_zero, Nat.add_zero]
    exact known

def teamMl : CapId := ⟨"team", "ml"⟩

/-- Two nodes have spent of a cap of a hundred, a third has not reported. -/
def twoHot : List Update := [.report "h1" teamMl 100 60, .report "h2" teamMl 100 30]

theorem two_hot_conserve :
    ∑ nodeId ∈ {"h1", "h2", "c1"}, (after twoHot).granted nodeId teamMl ≤ ((after twoHot).capState teamMl).cap :=
  (shares_conserved_iff (by decide) teamMl).mpr (by decide) {"h1", "h2", "c1"}

/-- The only node that reported has left; eleven others are granted a tenth of the cap each. -/
theorem eleven_unknown_exceed :
    ¬ ∀ (updates : List Update) (id : CapId) (nodes : Finset String),
      (∀ update ∈ updates, update.cap ≤ u64Max) →
      ∑ nodeId ∈ nodes, (after updates).granted nodeId id ≤ ((after updates).capState id).cap := by
  intro claimed
  have conserved := claimed [.report "h1" teamMl 100 60, .forget "h1"] teamMl
    {"n0", "n1", "n2", "n3", "n4", "n5", "n6", "n7", "n8", "n9", "n10"} (by decide)
  revert conserved
  decide +kernel

end FleetBudgets

end SmallGateway
