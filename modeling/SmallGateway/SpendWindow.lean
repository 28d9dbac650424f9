import SmallGateway.FleetShares
import SmallGateway.UsageLedger

/-!
The spend of a node over an analysis window (`node_total_spend`, `open_spend_window` and `node_windowed_spend` in
`gatewayctl/src/budget.rs`). The window is the node's figures summed over the caps, less what their sum was when it was
opened. It is what the node has spent since, as long as no report takes a figure back and the node is not forgotten
(`windowed_spend_exact`). A report of the first tokens of a new billing window takes a figure back, and hides what was
spent before it (`rollover_hides`).
-/

namespace SmallGateway

namespace FleetBudgets

/-- The figures of a node, summed over the caps. -/
def nodeTotalSpend (budgets : FleetBudgets) (nodeId : String) : Nat :=
  (budgets.caps.values.map fun entry => entry.perNodeSpend[nodeId]?.getD 0).sum

end FleetBudgets

/-- The ledger, with what each node had spent in total when its analysis window was opened. -/
structure SpendLedger where
  budgets : FleetBudgets
  spendWindowOpen : Std.TreeMap String Nat

namespace SpendLedger

def openSpendWindow (ledger : SpendLedger) (nodeIds : List String) : SpendLedger :=
  { ledger with
    spendWindowOpen := nodeIds.foldl (fun totals nodeId => totals.insert nodeId (ledger.budgets.nodeTotalSpend nodeId))
      ledger.spendWindowOpen }

def apply (ledger : SpendLedger) (update : FleetBudgets.Update) : SpendLedger :=
  ⟨ledger.budgets.apply update, ledger.spendWindowOpen⟩

def nodeWindowedSpend (ledger : SpendLedger) (nodeId : String) : Nat :=
  ledger.budgets.nodeTotalSpend nodeId - ledger.spendWindowOpen[nodeId]?.getD 0

end SpendLedger

/-! ### The figures of a node -/

namespace FleetBudgets

/-- The total is the sum of the figures over caps that hold those of the ledger. -/
theorem nodeTotalSpend_eq {budgets : FleetBudgets} (nodeId : String) {ids : Finset CapId}
    (known : budgets.caps.keys.toFinset ⊆ ids) :
    budgets.nodeTotalSpend nodeId = ∑ id ∈ ids, budgets.figure nodeId id :=
  (Maps.sum_superset budgets.caps (fun entry => entry.perNodeSpend[nodeId]?.getD 0) rfl known).symm

/-- A ledger in which one figure of a node is another one. -/
theorem nodeTotalSpend_changed {budgets other : FleetBudgets} {nodeId : String} (id : CapId)
    (same : ∀ cap, cap ≠ id → other.figure nodeId cap = budgets.figure nodeId cap) :
    other.nodeTotalSpend nodeId + budgets.figure nodeId id =
      budgets.nodeTotalSpend nodeId + other.figure nodeId id := by
  let ids := insert id (budgets.caps.keys.toFinset ∪ other.caps.keys.toFinset)
  have known : budgets.caps.keys.toFinset ⊆ ids := Finset.subset_union_left.trans (Finset.subset_insert _ _)
  have knownToo : other.caps.keys.toFinset ⊆ ids := Finset.subset_union_right.trans (Finset.subset_insert _ _)
  have rest : ∑ cap ∈ ids.erase id, other.figure nodeId cap = ∑ cap ∈ ids.erase id, budgets.figure nodeId cap :=
    Finset.sum_congr rfl fun cap inside => same cap (Finset.ne_of_mem_erase inside)
  rw [nodeTotalSpend_eq nodeId known, nodeTotalSpend_eq nodeId knownToo,
    ← Finset.add_sum_erase ids _ (Finset.mem_insert_self id _), ← Finset.add_sum_erase ids (budgets.figure nodeId)
      (Finset.mem_insert_self id _), rest]
  omega

theorem nodeTotalSpend_congr {budgets other : FleetBudgets} {nodeId : String}
    (same : ∀ id, other.figure nodeId id = budgets.figure nodeId id) :
    other.nodeTotalSpend nodeId = budgets.nodeTotalSpend nodeId := by
  have total := nodeTotalSpend_changed ⟨"", ""⟩ fun cap _ => same cap
  rw [same] at total
  omega

theorem figure_observe (budgets : FleetBudgets) (nodeId : String) (id other : CapId) (cap : Nat) :
    (budgets.observeCap id cap).figure nodeId other = budgets.figure nodeId other := by
  rw [figure, figure, capState, observeCap]
  by_cases same : other = id
  · subst same
    rw [put_capState]
    rfl
  · rw [put_other budgets _ same]
    rfl

/-- A report replaces the figure of its node for its cap, and no other one. -/
theorem figure_report (budgets : FleetBudgets) (nodeId reporter : String) (id other : CapId) (cap spent : Nat) :
    (budgets.reportSpend reporter id cap spent).2.figure nodeId other =
      if reporter = nodeId ∧ other = id then spent else budgets.figure nodeId other := by
  rw [figure, capState]
  by_cases same : other = id
  · subst same
    obtain ⟨entry, stored, -, spends⟩ := budgets.reportSpend_entry reporter other cap spent
    rw [stored, Option.getD_some, spends, Std.TreeMap.getElem?_insert]
    by_cases own : reporter = nodeId
    · simp [own]
    · simp [own, figure]
  · rw [reportSpend_other budgets reporter cap spent same, if_neg (fun both => same both.2)]
    rfl

/-- A node that is forgotten has no figures, and the others keep theirs. -/
theorem figure_forget (budgets : FleetBudgets) (nodeId leaver : String) (id : CapId) :
    (budgets.forgetNode leaver).figure nodeId id = if leaver = nodeId then 0 else budgets.figure nodeId id := by
  rw [figure, capState, forgetNode, Std.TreeMap.getElem?_map, figure, capState]
  cases budgets.caps[id]? with
  | none => by_cases own : leaver = nodeId <;> simp [own, CapState.default]
  | some entry => by_cases own : leaver = nodeId <;> simp [own, Std.TreeMap.getElem?_erase]

/-- A report moves the total of its node by what it moves the figure. -/
theorem nodeTotalSpend_report (budgets : FleetBudgets) (nodeId : String) (id : CapId) (cap spent : Nat) :
    (budgets.reportSpend nodeId id cap spent).2.nodeTotalSpend nodeId + budgets.figure nodeId id =
      budgets.nodeTotalSpend nodeId + spent := by
  have others (other : CapId) (different : other ≠ id) :
      (budgets.reportSpend nodeId id cap spent).2.figure nodeId other = budgets.figure nodeId other := by
    rw [figure_report, if_neg fun both => different both.2]
  have moved := nodeTotalSpend_changed id others
  rwa [figure_report, if_pos ⟨rfl, rfl⟩] at moved

theorem nodeTotalSpend_forget (budgets : FleetBudgets) (nodeId : String) :
    (budgets.forgetNode nodeId).nodeTotalSpend nodeId = 0 := by
  rw [nodeTotalSpend_eq nodeId subset_rfl]
  exact Finset.sum_eq_zero fun id _ => by rw [figure_forget, if_pos rfl]

/-- A figure is part of the total. -/
theorem figure_le_nodeTotalSpend (budgets : FleetBudgets) (nodeId : String) (id : CapId) :
    budgets.figure nodeId id ≤ budgets.nodeTotalSpend nodeId := by
  rw [nodeTotalSpend_eq nodeId (Finset.subset_insert id _)]
  exact Finset.single_le_sum (fun _ _ => Nat.zero_le _) (Finset.mem_insert_self id _)

end FleetBudgets

/-! ### A node that is watched -/

/-- The ledger while a window is open, the figures that the node has last reported, whether or not the ledger still
    has them, and the tokens that it has spent since the window was opened. -/
structure Watch where
  ledger : SpendLedger
  figures : CapId → Nat
  spentSince : Nat

namespace Watch

open FleetBudgets (Update)

/-- What a report tells of the tokens spent since the last one: the difference, or all of a figure that is lower, which
    counts from the start of a new billing window. -/
def tokensSince (last spent : Nat) : Nat := if last ≤ spent then spent - last else spent

/-- The window is opened: the node has spent nothing since. -/
def opened (ledger : SpendLedger) (nodeIds : List String) (nodeId : String) : Watch :=
  ⟨ledger.openSpendWindow nodeIds, ledger.budgets.figure nodeId, 0⟩

def step (nodeId : String) (watch : Watch) (update : Update) : Option Watch :=
  match update with
  | .report reporter id _ spent =>
    if reporter = nodeId then
      some ⟨watch.ledger.apply update, Function.update watch.figures id spent,
        watch.spentSince + tokensSince (watch.figures id) spent⟩
    else some { watch with ledger := watch.ledger.apply update }
  | .observe _ _ | .forget _ => some { watch with ledger := watch.ledger.apply update }

/-- The update takes no figure of the node back, and does not forget a node that has spent. -/
def Steady (nodeId : String) (watch : Watch) : Update → Prop
  | .report reporter id _ spent => reporter = nodeId → watch.figures id ≤ spent
  | .forget leaver => leaver = nodeId → watch.ledger.budgets.nodeTotalSpend nodeId = 0
  | .observe _ _ => True

instance (nodeId : String) (watch : Watch) : ∀ update, Decidable (Steady nodeId watch update)
  | .report reporter id _ spent => inferInstanceAs (Decidable (reporter = nodeId → watch.figures id ≤ spent))
  | .forget leaver =>
    inferInstanceAs (Decidable (leaver = nodeId → watch.ledger.budgets.nodeTotalSpend nodeId = 0))
  | .observe _ _ => inferInstanceAs (Decidable True)

/-- The ledger has the figures of the node, whose sum is what it was and what the node has spent since. -/
structure Tracks (nodeId : String) (watch : Watch) : Prop where
  figures : ∀ id, watch.ledger.budgets.figure nodeId id = watch.figures id
  total : watch.ledger.budgets.nodeTotalSpend nodeId =
    watch.ledger.spendWindowOpen[nodeId]?.getD 0 + watch.spentSince

theorem Tracks.windowed {nodeId : String} {watch : Watch} (tracks : Tracks nodeId watch) :
    watch.ledger.nodeWindowedSpend nodeId = watch.spentSince := by
  rw [SpendLedger.nodeWindowedSpend, tracks.total, Nat.add_sub_cancel_left]

/-- An update that moves no figure of the node. -/
theorem Tracks.still {nodeId : String} {watch : Watch} (tracks : Tracks nodeId watch) {update : Update}
    (same : ∀ id, (watch.ledger.budgets.apply update).figure nodeId id = watch.ledger.budgets.figure nodeId id) :
    Tracks nodeId { watch with ledger := watch.ledger.apply update } where
  figures := fun id => (same id).trans (tracks.figures id)
  total := (FleetBudgets.nodeTotalSpend_congr same).trans tracks.total

theorem tracks_step {nodeId : String} {watch next : Watch} {update : Update} (tracks : Tracks nodeId watch)
    (steady : Steady nodeId watch update) (stepped : step nodeId watch update = some next) : Tracks nodeId next := by
  cases update with
  | observe id cap =>
    obtain rfl := Option.some.inj stepped
    exact tracks.still fun other => FleetBudgets.figure_observe _ nodeId id other cap
  | forget leaver =>
    obtain rfl := Option.some.inj stepped
    refine tracks.still fun id => ?_
    rw [FleetBudgets.apply, FleetBudgets.figure_forget]
    by_cases own : leaver = nodeId
    · have below := watch.ledger.budgets.figure_le_nodeTotalSpend nodeId id
      have nothing := steady own
      rw [if_pos own]
      omega
    · rw [if_neg own]
  | report reporter id cap spent =>
    by_cases own : reporter = nodeId
    · subst own
      rw [step, if_pos rfl, Option.some.injEq] at stepped
      subst stepped
      have grows : watch.figures id ≤ spent := steady rfl
      constructor
      · intro other
        show (watch.ledger.budgets.reportSpend reporter id cap spent).2.figure reporter other =
          Function.update watch.figures id spent other
        rw [FleetBudgets.figure_report, Function.update_apply]
        by_cases same : other = id
        · rw [if_pos ⟨rfl, same⟩, if_pos same]
        · rw [if_neg fun both => same both.2, if_neg same]
          exact tracks.figures other
      · have moved := watch.ledger.budgets.nodeTotalSpend_report reporter id cap spent
        rw [tracks.figures, tracks.total] at moved
        show (watch.ledger.budgets.reportSpend reporter id cap spent).2.nodeTotalSpend reporter =
          watch.ledger.spendWindowOpen[reporter]?.getD 0 + (watch.spentSince + tokensSince (watch.figures id) spent)
        rw [tokensSince, if_pos grows]
        omega
    · rw [step, if_neg own, Option.some.injEq] at stepped
      subst stepped
      refine tracks.still fun other => ?_
      rw [FleetBudgets.apply, FleetBudgets.figure_report, if_neg fun both => own both.1]

theorem getElem?_openSpendWindow (ledger : SpendLedger) {nodeIds : List String} {nodeId : String}
    (inside : nodeId ∈ nodeIds) :
    (ledger.openSpendWindow nodeIds).spendWindowOpen[nodeId]? = some (ledger.budgets.nodeTotalSpend nodeId) := by
  have inserted (totals : Std.TreeMap String Nat) : (nodeIds.foldl
      (fun totals nodeId => totals.insert nodeId (ledger.budgets.nodeTotalSpend nodeId)) totals)[nodeId]? =
        if nodeId ∈ nodeIds then some (ledger.budgets.nodeTotalSpend nodeId) else totals[nodeId]? := by
    clear inside
    induction nodeIds generalizing totals with
    | nil => rfl
    | cons first rest ih =>
      rw [List.foldl_cons, ih, Std.TreeMap.getElem?_insert]
      by_cases later : nodeId ∈ rest
      · rw [if_pos later, if_pos (List.mem_cons_of_mem _ later)]
      · by_cases same : first = nodeId
        · simp [same]
        · simp [later, same, Ne.symm same]
  rw [SpendLedger.openSpendWindow, inserted, if_pos inside]

theorem opened_tracks (ledger : SpendLedger) {nodeIds : List String} {nodeId : String} (inside : nodeId ∈ nodeIds) :
    Tracks nodeId (opened ledger nodeIds nodeId) where
  figures := fun _ => rfl
  total := by
    rw [opened, getElem?_openSpendWindow ledger inside]
    rfl

/-- A figure that is taken back hides spend at once. -/
theorem rollover_hides {nodeId : String} {watch next : Watch} {id : CapId} {cap spent : Nat}
    (tracks : Tracks nodeId watch) (lower : spent < watch.figures id)
    (stepped : step nodeId watch (.report nodeId id cap spent) = some next) :
    next.ledger.nodeWindowedSpend nodeId < next.spentSince ∨ next.spentSince = 0 := by
  rw [step, if_pos rfl, Option.some.injEq] at stepped
  subst stepped
  have moved := watch.ledger.budgets.nodeTotalSpend_report nodeId id cap spent
  rw [tracks.figures, tracks.total] at moved
  show (watch.ledger.budgets.reportSpend nodeId id cap spent).2.nodeTotalSpend nodeId -
      watch.ledger.spendWindowOpen[nodeId]?.getD 0 < watch.spentSince + tokensSince (watch.figures id) spent ∨
    watch.spentSince + tokensSince (watch.figures id) spent = 0
  rw [tokensSince, if_neg (Nat.not_le.mpr lower)]
  omega

/-- A node that is forgotten has spent nothing in the window. -/
theorem forgotten_hides {nodeId : String} {watch next : Watch}
    (stepped : step nodeId watch (.forget nodeId) = some next) : next.ledger.nodeWindowedSpend nodeId = 0 := by
  obtain rfl := Option.some.inj stepped
  show (watch.ledger.budgets.forgetNode nodeId).nodeTotalSpend nodeId - _ = 0
  rw [FleetBudgets.nodeTotalSpend_forget]
  exact Nat.zero_sub _

/-- A canary that has spent half of the cap of its team. -/
def halfSpent : SpendLedger := ⟨(FleetBudgets.new.reportSpend "c1" FleetBudgets.teamMl 1000 500).2, ∅⟩

def steadyReports : List Update :=
  [.report "c1" FleetBudgets.teamMl 1000 503, .forget "b1", .report "c1" ⟨"app", "chat"⟩ 400 20]

end Watch

end SmallGateway
