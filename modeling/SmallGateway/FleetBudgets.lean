import SmallGateway.Budget

/-!
The control plane's half of the spend caps (`gatewayctl/src/budget.rs`): a ledger of what each node last
reported for each capped spender, and the share of the cap each node is granted from it.
-/

namespace SmallGateway

/-- The part of the headroom that the nodes with no spend yet divide. -/
def coldNodeFloorFraction : ℚ := 1 / 10

/-- The node name on alerts the control plane raises itself. -/
def fleetNode : String := "<control-plane>"

/-- The fleet-wide state of one capped spender; a cap of zero is uncapped. -/
structure CapState where
  cap : Nat
  perNodeSpend : Std.TreeMap String Nat
  softFired : Bool
  hardFired : Bool

namespace CapState

def default : CapState := ⟨0, ∅, false, false⟩

def totalSpend (state : CapState) : Nat := state.perNodeSpend.values.sum

/-- Raises the cap to the one reported and replaces the node's figure. A total that drops means a new
    window, and arms the alerts again. -/
def record (state : CapState) (nodeId : String) (cap spent : Nat) : CapState :=
  let entry := { state with
    cap := max state.cap cap, perNodeSpend := state.perNodeSpend.insert nodeId spent }
  if entry.totalSpend < state.totalSpend then { entry with softFired := false, hardFired := false }
  else entry

@[simp] theorem record_cap (state : CapState) (nodeId : String) (cap spent : Nat) :
    (state.record nodeId cap spent).cap = max state.cap cap := by
  unfold record
  dsimp only
  split <;> rfl

@[simp] theorem record_perNodeSpend (state : CapState) (nodeId : String) (cap spent : Nat) :
    (state.record nodeId cap spent).perNodeSpend = state.perNodeSpend.insert nodeId spent := by
  unfold record
  dsimp only
  split <;> rfl

end CapState

/-- The control plane's ledger. -/
structure FleetBudgets where
  caps : Std.TreeMap CapId CapState

/-- A node's share of one cap. -/
structure ShareAllocation where
  id : CapId
  cap : Nat
  share : Nat
  deriving DecidableEq, Repr

namespace FleetBudgets

def new : FleetBudgets := ⟨∅⟩

/-- The state of a spender, the default one when nothing was reported for it. -/
def capState (budgets : FleetBudgets) (id : CapId) : CapState := budgets.caps[id]?.getD .default

def put (budgets : FleetBudgets) (id : CapId) (state : CapState) : FleetBudgets :=
  ⟨budgets.caps.insert id state⟩

/-- Learns a cap; the largest one reported is kept. -/
def observeCap (budgets : FleetBudgets) (id : CapId) (cap : Nat) : FleetBudgets :=
  let entry := budgets.capState id
  budgets.put id { entry with cap := max entry.cap cap }

/-- The alerts the fleet-wide total newly crosses. -/
def fleetAlerts (id : CapId) (entry : CapState) : List Alert × CapState :=
  if entry.cap = 0 then ([], entry)
  else
    let total := entry.totalSpend
    let soft := !entry.softFired && decide ((total : ℚ) / entry.cap ≥ softAlertFraction)
    let hard := !entry.hardFired && decide (total ≥ entry.cap)
    ((if soft then [⟨.softThreshold softAlertFraction, id, entry.cap, total, fleetNode⟩] else []) ++
        (if hard then [⟨.hardCap, id, entry.cap, total, fleetNode⟩] else []),
      { entry with softFired := entry.softFired || soft, hardFired := entry.hardFired || hard })

/-- Ingests one figure of a node's usage report, with the alerts it raises. -/
def reportSpend (budgets : FleetBudgets) (nodeId : String) (id : CapId) (cap spent : Nat) :
    List Alert × FleetBudgets :=
  let (alerts, entry) := fleetAlerts id ((budgets.capState id).record nodeId cap spent)
  (alerts, budgets.put id entry)

/-- Reclaims a departed node's spend. -/
def forgetNode (budgets : FleetBudgets) (nodeId : String) : FleetBudgets :=
  ⟨budgets.caps.map fun _ entry => { entry with perNodeSpend := entry.perNodeSpend.erase nodeId }⟩

/-- One node's share of one cap: cold nodes divide a floor of the headroom, hot nodes divide the rest of
    the cap by their spend. -/
def shareForNode (nodeId : String) (entry : CapState) : Nat :=
  let cap := entry.cap
  let total := entry.totalSpend
  let nodeCount := max entry.perNodeSpend.size 1
  let nodeSpent := entry.perNodeSpend[nodeId]?.getD 0
  if cap = 0 then 0
  else if total = 0 then ⌊(cap : ℚ) * coldNodeFloorFraction / nodeCount⌋₊
  else
    let headroom := cap - total
    let coldCount := entry.perNodeSpend.values.countP (· = 0)
    let coldFloorEach :=
      if coldCount = 0 then 0 else ⌊(headroom : ℚ) * coldNodeFloorFraction / nodeCount⌋₊
    if nodeSpent = 0 then min coldFloorEach cap
    else
      let coldReservation := min (coldFloorEach * coldCount) u64Max
      let hotPool := cap - coldReservation
      let hotSlice := ⌊(hotPool : ℚ) * (nodeSpent / total)⌋₊
      min hotSlice cap

/-- A node's shares of every capped spender of the ledger. -/
def sharesFor (budgets : FleetBudgets) (nodeId : String) : List ShareAllocation :=
  budgets.caps.toList.filterMap fun (id, entry) =>
    if entry.cap = 0 then none else some ⟨id, entry.cap, shareForNode nodeId entry⟩

/-- The fleet-wide spend reported for a spender. -/
def totalSpend (budgets : FleetBudgets) (id : CapId) : Nat :=
  (budgets.caps[id]?.map (·.totalSpend)).getD 0

@[simp] theorem put_capState (budgets : FleetBudgets) (id : CapId) (state : CapState) :
    (budgets.put id state).caps[id]? = some state := by
  simp [put]

theorem put_other (budgets : FleetBudgets) {id other : CapId} (state : CapState)
    (different : other ≠ id) : (budgets.put id state).caps[other]? = budgets.caps[other]? := by
  simp [put, Std.TreeMap.getElem?_insert, different.symm]

@[simp] theorem fleetAlerts_cap (id : CapId) (entry : CapState) :
    (fleetAlerts id entry).2.cap = entry.cap := by
  unfold fleetAlerts
  split <;> rfl

@[simp] theorem fleetAlerts_perNodeSpend (id : CapId) (entry : CapState) :
    (fleetAlerts id entry).2.perNodeSpend = entry.perNodeSpend := by
  unfold fleetAlerts
  split <;> rfl

/-- A report sets the node's figure and raises the cap to the one reported. -/
theorem reportSpend_entry (budgets : FleetBudgets) (nodeId : String) (id : CapId) (cap spent : Nat) :
    ∃ entry, (budgets.reportSpend nodeId id cap spent).2.caps[id]? = some entry ∧
      entry.cap = max (budgets.capState id).cap cap ∧
      entry.perNodeSpend = (budgets.capState id).perNodeSpend.insert nodeId spent := by
  refine ⟨(fleetAlerts id ((budgets.capState id).record nodeId cap spent)).2,
    put_capState budgets id _, ?_, ?_⟩
  · rw [fleetAlerts_cap, CapState.record_cap]
  · rw [fleetAlerts_perNodeSpend, CapState.record_perNodeSpend]

theorem reportSpend_other (budgets : FleetBudgets) (nodeId : String) {id other : CapId}
    (cap spent : Nat) (different : other ≠ id) :
    (budgets.reportSpend nodeId id cap spent).2.caps[other]? = budgets.caps[other]? :=
  put_other budgets _ different

theorem mem_sharesFor {budgets : FleetBudgets} {nodeId : String} {allocation : ShareAllocation}
    (granted : allocation ∈ budgets.sharesFor nodeId) :
    ∃ entry, budgets.caps[allocation.id]? = some entry ∧ allocation.cap = entry.cap ∧
      allocation.share = shareForNode nodeId entry := by
  obtain ⟨⟨id, entry⟩, inside, made⟩ := List.mem_filterMap.mp granted
  by_cases uncapped : entry.cap = 0
  · simp [uncapped] at made
  · simp only [uncapped, if_false, Option.some.injEq] at made
    subst made
    exact ⟨entry, Std.TreeMap.mem_toList_iff_getElem?_eq_some.mp inside, rfl, rfl⟩

end FleetBudgets

end SmallGateway
