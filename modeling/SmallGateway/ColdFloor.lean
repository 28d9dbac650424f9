import SmallGateway.EscalationBand
import SmallGateway.FleetShares

/-!
The floor of a node without spend (`COLD_NODE_FLOOR_FRACTION` and `share_for_node` in `gatewayctl/src/budget.rs`). A
brand-new or cold node is to be able to spend something. It can where the ledger holds a node without spend, or where
nobody has spent; where every node of the ledger has spent, a node that is not in it is granted nothing
(`cold_floor_iff`), and a budget without a share neither escalates nor spends while the control plane is out of reach
(`starved`).
-/

namespace SmallGateway

namespace CapState

/-- The slice of what is left of the cap that a node without spend is to have. -/
def floorSlice (entry : CapState) : Nat :=
  ⌊((entry.cap - entry.totalSpend : Nat) : ℚ) * coldNodeFloorFraction / entry.nodeCount⌋₊

theorem floorSlice_eq (entry : CapState) : entry.floorSlice = (entry.cap - entry.totalSpend) / 10 / entry.nodeCount :=
  floor_tenth_eq _ _

/-- A node without spend has its slice, unless every node of the ledger has spent. -/
theorem coldShare_eq_floorSlice (entry : CapState) :
    entry.coldShare = if entry.totalSpend ≠ 0 ∧ entry.coldCount = 0 then 0 else entry.floorSlice := by
  rw [coldShare_eq, floorSlice_eq]
  by_cases unspent : entry.totalSpend = 0
  · simp [unspent]
  · by_cases hot : entry.coldCount = 0
    · simp [unspent, hot]
    · simp [unspent, hot]

theorem coldCount_pos_iff {entry : CapState} : 0 < entry.coldCount ↔ 0 ∈ entry.perNodeSpend.values := by
  rw [coldCount, List.countP_pos_iff]
  simp

end CapState

namespace FleetBudgets

/-- A node that is not known to have spent is granted what a cold one is. -/
theorem unspent_share {entry : CapState} {nodeId : String} (unspent : entry.perNodeSpend[nodeId]?.getD 0 = 0) :
    shareForNode nodeId entry = entry.coldShare := by
  have bounded := entry.coldShare_mul_le entry.nodeCount_pos
  rw [shareForNode_eq, if_pos unspent, Nat.min_eq_left]
  omega

/-- Where the floor slice comes to a token, every node without spend is granted a share. -/
def ColdFloor (budgets : FleetBudgets) (id : CapId) : Prop :=
  1 ≤ (budgets.capState id).floorSlice → ∀ nodeId, (budgets.capState id).perNodeSpend[nodeId]?.getD 0 = 0 →
    0 < budgets.granted nodeId id

/-- Some node is not in the ledger of a cap. -/
theorem exists_unknown (entry : CapState) : ∃ nodeId, nodeId ∉ entry.perNodeSpend := by
  obtain ⟨nodeId, unknown⟩ := Infinite.exists_notMem_finset entry.perNodeSpend.keys.toFinset
  refine ⟨nodeId, fun inside => unknown ?_⟩
  rw [List.mem_toFinset, Std.TreeMap.mem_keys]
  exact inside

/-- In every ledger: the nodes without spend have a share exactly where the floor slice is no token, nobody has spent,
    or some node of the ledger has not. -/
theorem cold_floor_iff (budgets : FleetBudgets) (id : CapId) :
    budgets.ColdFloor id ↔
      (budgets.capState id).floorSlice = 0 ∨ (budgets.capState id).totalSpend = 0 ∨
        0 ∈ (budgets.capState id).perNodeSpend.values := by
  simp only [ColdFloor, granted_eq]
  generalize budgets.capState id = entry
  rw [← CapState.coldCount_pos_iff]
  constructor
  · intro floors
    by_contra starves
    push Not at starves
    obtain ⟨slice, spent, hot⟩ := starves
    obtain ⟨nodeId, unknown⟩ := exists_unknown entry
    have unspent : entry.perNodeSpend[nodeId]?.getD 0 = 0 := by rw [Std.TreeMap.getElem?_eq_none unknown]; rfl
    have share := floors (Nat.pos_of_ne_zero slice) nodeId unspent
    rw [unspent_share unspent, CapState.coldShare_eq_floorSlice, if_pos ⟨spent, Nat.le_zero.mp hot⟩] at share
    exact absurd share (Nat.lt_irrefl 0)
  · intro kept slice nodeId unspent
    have some_cold : ¬ (entry.totalSpend ≠ 0 ∧ entry.coldCount = 0) := by
      rintro ⟨spent, hot⟩
      omega
    rw [unspent_share unspent, CapState.coldShare_eq_floorSlice, if_neg some_cold]
    exact slice

/-- A node that is granted nothing: its budget is not in the band whatever it spends, and every spend is denied while
    the control plane is out of reach. -/
theorem starved {budgets : FleetBudgets} {id : CapId} {nodeId : String} (nothing : budgets.granted nodeId id = 0)
    {budget : LocalBudget} {cap : Nat} (capped : budget.cap = some cap) {tokens : Nat} (asks : 0 < tokens) :
    let held := budget.setShare (budgets.granted nodeId id)
    ¬ held.InBand (saturatingAdd held.spent tokens) ∧ held.checkPartitioned tokens = .deny cap := by
  intro held
  have same : held.cap = some cap := capped
  exact ⟨LocalBudget.unshared_not_inBand nothing _, LocalBudget.unshared_denies same nothing asks⟩

/-- One node has spent a tenth of the cap, and a node that has just joined is granted nothing of the rest. -/
theorem newcomer_starves :
    let budgets := (new.reportSpend "h1" teamMl 1000 100).2
    1 ≤ (budgets.capState teamMl).floorSlice ∧ budgets.granted "c1" teamMl = 0 ∧ ¬ budgets.ColdFloor teamMl := by
  intro budgets
  have slice : 1 ≤ (budgets.capState teamMl).floorSlice := by
    rw [CapState.floorSlice_eq]
    decide
  have nothing : budgets.granted "c1" teamMl = 0 := by decide
  refine ⟨slice, nothing, fun floors => ?_⟩
  have share := floors slice "c1" (by decide)
  rw [nothing] at share
  exact absurd share (Nat.lt_irrefl 0)

end FleetBudgets

end SmallGateway
