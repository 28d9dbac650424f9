import Mathlib.Algebra.BigOperators.Group.Finset.Basic
import Mathlib.Data.Finset.Prod
import SmallGateway.NodeBudgets

/-!
A node that cannot reach the control plane (`gatewayd/src/budget.rs`: `admit`, `meter`; `gateway-core/src/budget.rs`:
`check_partitioned`). It gets no grants, so the share it holds of a lifetime cap stays what it was. Every stream
commits its tokens before it learns whether it must end, and makes no call for a spender that it was cut on, so past
the bound each stream spends at most once more (`partition_bound`).
-/

namespace SmallGateway

open NodeBudgets (StoresCap Lifetime)

/-- A partitioned node: its ledger, the tokens each stream last metered for each spender, and the streams that were
    cut, with the spender they were cut on. -/
structure PartitionedNode where
  budgets : NodeBudgets
  last : Nat × CapId → Nat
  cut : Finset (Nat × CapId)

namespace PartitionedNode

/-- A node at the moment it is partitioned. -/
def atPartition (budgets : NodeBudgets) : PartitionedNode := ⟨budgets, fun _ => 0, ∅⟩

inductive Action where
  | admitRequest (id : CapId) (terms : Option CapTerms) (nowUnix : Nat)
  | meter (stream : Nat) (id : CapId) (terms : Option CapTerms) (tokens nowUnix : Nat)

/-- A stream that was cut on a spender meters no more tokens for it. -/
def step (node : PartitionedNode) : Action → Option PartitionedNode
  | .admitRequest id terms nowUnix =>
    some { node with budgets := (node.budgets.admitRequest id terms nowUnix).2 }
  | .meter stream id terms tokens nowUnix =>
    if (stream, id) ∈ node.cut then none
    else
      let (outcome, _, budgets) := node.budgets.meter id terms tokens nowUnix
      some
        { budgets
          last := Function.update node.last (stream, id) tokens
          cut := if outcome.isCut then insert (stream, id) node.cut else node.cut }

/-- A call for the spender carries its one lifetime cap. -/
def LifetimeCap (id : CapId) (cap : Nat) (_ : PartitionedNode) : Action → Prop
  | .admitRequest other terms _ => other = id → ∃ t, terms = some t ∧ t.cap = cap ∧ t.window = none
  | .meter _ other terms _ _ => other = id → ∃ t, terms = some t ∧ t.cap = cap ∧ t.window = none

/-- The smaller of the cap and the share that the node holds of it; a spender not seen yet holds the whole cap. -/
def heldBound (budgets : NodeBudgets) (id : CapId) (cap : Nat) : Nat :=
  NodeBudgets.meterBound true (budgets.ensure id (some cap)) cap

/-- What the streams that were cut on the spender metered last. -/
def lastDeltas (node : PartitionedNode) (id : CapId) : Nat :=
  ∑ call ∈ node.cut with call.2 = id, node.last call

/-! ### One call -/

section

variable {budgets : NodeBudgets} {id : CapId} {t : CapTerms}

/-- A partitioned node denies a lifetime spender exactly when its counter has reached the bound; a bound of `u64::MAX`
    is never reached, since the probe saturates. -/
theorem admit_isDeny_iff (partitioned : budgets.partitioned = true) (stores : StoresCap id (some t.cap) budgets)
    (lifetime : Lifetime id budgets) (window : t.window = none) (nowUnix : Nat) :
    (budgets.admitRequest id (some t) nowUnix).1.isDeny = true ↔
      heldBound budgets id t.cap ≤ budgets.spentOf id ∧ heldBound budgets id t.cap < u64Max := by
  have windowless : ∀ terms, some t = some terms → terms.window = none := by
    rintro terms ⟨⟩
    exact window
  obtain ⟨-, kept⟩ := lifetime.syncTerms_budget windowless nowUnix
  have verdict : (budgets.admitRequest id (some t) nowUnix).1 =
      (budgets.ensure id (some t.cap)).budget.checkPartitioned 1 := by
    simp only [Option.map_some] at kept
    simp [NodeBudgets.admitRequest, partitioned, kept]
  rw [verdict, LocalBudget.checkPartitioned_isDeny]
  have bound : heldBound budgets id t.cap = min (budgets.ensure id (some t.cap)).budget.share t.cap := rfl
  rw [stores.ensure, NodeBudgets.ensure_spent, bound]
  simp only [Option.some.injEq, exists_eq_left', lt_saturatingAdd_iff]
  omega

theorem meter_isCut_iff (partitioned : budgets.partitioned = true) (lifetime : Lifetime id budgets)
    (window : t.window = none) (tokens nowUnix : Nat) :
    (budgets.meter id (some t) tokens nowUnix).1.isCut = true ↔
      heldBound budgets id t.cap < (budgets.meter id (some t) tokens nowUnix).2.2.spentOf id := by
  have windowless : id = id → ∀ terms, some t = some terms → terms.window = none := by
    rintro - terms ⟨⟩
    exact window
  rw [lifetime.meter_isCut window, (lifetime.meter windowless tokens nowUnix).2, if_pos rfl,
    NodeBudgets.cutBound, partitioned]
  rfl

theorem heldBound_congr {after : NodeBudgets} {cap : Nat} (same : after.inner[id]? = budgets.inner[id]?) :
    heldBound after id cap = heldBound budgets id cap := by
  unfold heldBound NodeBudgets.ensure
  rw [same]

/-- Neither call moves the share that is held. -/
theorem heldBound_of_budget {after : NodeBudgets} {cap : Nat} {entry : Entry} (seen : after.inner[id]? = some entry)
    (share : entry.budget.share = (budgets.ensure id (some cap)).budget.share) :
    heldBound after id cap = heldBound budgets id cap := by
  unfold heldBound NodeBudgets.meterBound
  rw [NodeBudgets.ensure_seen seen, share]

end

/-- The call of a stream that was not cut counts towards the last deltas when it is cut now. -/
theorem lastDeltas_meter {node : PartitionedNode} {stream : Nat} {other id : CapId} {tokens : Nat}
    (running : (stream, other) ∉ node.cut) (budgets : NodeBudgets) (isCut : Bool) :
    lastDeltas
        { budgets
          last := Function.update node.last (stream, other) tokens
          cut := if isCut = true then insert (stream, other) node.cut else node.cut } id =
      node.lastDeltas id + if isCut = true ∧ other = id then tokens else 0 := by
  have kept : ∑ call ∈ node.cut with call.2 = id, Function.update node.last (stream, other) tokens call =
      node.lastDeltas id := by
    refine Finset.sum_congr rfl fun call inside => ?_
    have different : call ≠ (stream, other) := by
      rintro rfl
      exact running (Finset.mem_of_mem_filter _ inside)
    rw [Function.update_of_ne different]
  unfold lastDeltas
  dsimp only
  cases isCut with
  | false =>
    rw [if_neg Bool.false_ne_true, kept, if_neg (fun both => Bool.false_ne_true both.1), Nat.add_zero]
    rfl
  | true =>
    by_cases same : other = id
    · have fresh : (stream, other) ∉ node.cut.filter (·.2 = id) :=
        fun inside => running (Finset.mem_of_mem_filter _ inside)
      rw [if_pos rfl, if_pos ⟨rfl, same⟩, Finset.filter_insert, if_pos same, Finset.sum_insert fresh, kept,
        Function.update_self, Nat.add_comm]
      rfl
    · rw [if_pos rfl, if_neg (fun both => same both.2), Finset.filter_insert, if_neg same, kept]
      rfl

/-- What holds of a spender while its node is partitioned: its bound is what it was, and its counter is past the bound
    and what it had by no more than the last deltas of the streams that were cut on it. -/
structure Bounded (id : CapId) (cap bound atStart : Nat) (node : PartitionedNode) : Prop where
  partitioned : node.budgets.partitioned = true
  stores : StoresCap id (some cap) node.budgets
  lifetime : Lifetime id node.budgets
  held : heldBound node.budgets id cap = bound
  spent : node.budgets.spentOf id ≤ max atStart bound + node.lastDeltas id

section

variable {id other : CapId} {cap : Nat} {terms : Option CapTerms} {node : PartitionedNode}

private theorem windowless_of_agreed (agreed : other = id → ∃ t, terms = some t ∧ t.cap = cap ∧ t.window = none)
    (same : other = id) : ∀ t, terms = some t → t.window = none := by
  rintro t rfl
  obtain ⟨_, ⟨⟩, -, window⟩ := agreed same
  exact window

private theorem named_of_agreed (agreed : other = id → ∃ t, terms = some t ∧ t.cap = cap ∧ t.window = none) :
    ∀ named ∈ (if other = id then [terms.map (·.cap)] else []), named = some cap := by
  intro named inside
  by_cases same : other = id
  · obtain ⟨t, rfl, agrees, -⟩ := agreed same
    rw [if_pos same, List.mem_singleton] at inside
    rw [inside, Option.map_some, agrees]
  · simp [same] at inside

private theorem Bounded.admitRequest {bound atStart : Nat} (bounded : node.Bounded id cap bound atStart)
    (agreed : other = id → ∃ t, terms = some t ∧ t.cap = cap ∧ t.window = none) (nowUnix : Nat) :
    Bounded id cap bound atStart { node with budgets := (node.budgets.admitRequest other terms nowUnix).2 } := by
  have windowless := windowless_of_agreed agreed
  obtain ⟨lifetime, spent⟩ := bounded.lifetime.admitRequest windowless nowUnix
  refine ⟨bounded.partitioned, ?_, lifetime, ?_, spent ▸ bounded.spent⟩
  · exact NodeBudgets.storesCap_preserved id (some cap) node.budgets (.admitRequest other terms nowUnix) _
      bounded.stores (named_of_agreed agreed) rfl
  · rw [← bounded.held]
    by_cases same : other = id
    · obtain ⟨t, rfl, rfl, -⟩ := agreed same
      subst same
      obtain ⟨-, kept⟩ := bounded.lifetime.syncTerms_budget (windowless rfl) nowUnix
      have share := congrArg LocalBudget.share kept
      exact heldBound_of_budget (NodeBudgets.admit_entry node.budgets other (some t) nowUnix) share
    · exact heldBound_congr (NodeBudgets.admit_other node.budgets terms nowUnix (Ne.symm same))

private theorem Bounded.meter {bound atStart : Nat} (bounded : node.Bounded id cap bound atStart)
    (agreed : other = id → ∃ t, terms = some t ∧ t.cap = cap ∧ t.window = none) {stream : Nat}
    (running : (stream, other) ∉ node.cut) (tokens nowUnix : Nat) :
    Bounded id cap bound atStart
      { budgets := (node.budgets.meter other terms tokens nowUnix).2.2
        last := Function.update node.last (stream, other) tokens
        cut :=
          if (node.budgets.meter other terms tokens nowUnix).1.isCut = true then insert (stream, other) node.cut
          else node.cut } := by
  have windowless := windowless_of_agreed agreed
  obtain ⟨lifetime, spent⟩ := bounded.lifetime.meter windowless tokens nowUnix
  have before := bounded.spent
  refine ⟨(NodeBudgets.meter_partitioned _ _ _ _ _).trans bounded.partitioned, ?_, lifetime, ?_, ?_⟩
  · exact NodeBudgets.storesCap_preserved id (some cap) node.budgets (.meter other terms tokens nowUnix) _
      bounded.stores (named_of_agreed agreed) rfl
  · rw [← bounded.held]
    by_cases same : other = id
    · obtain ⟨t, rfl, rfl, -⟩ := agreed same
      subst same
      obtain ⟨-, kept⟩ := bounded.lifetime.syncTerms_budget (windowless rfl) nowUnix
      obtain ⟨latch, seen⟩ := NodeBudgets.meter_entry node.budgets other (some t) tokens nowUnix
      have share := congrArg LocalBudget.share kept
      exact heldBound_of_budget seen share
    · exact heldBound_congr (NodeBudgets.meter_other node.budgets terms tokens nowUnix (Ne.symm same))
  · rw [lastDeltas_meter running]
    show (node.budgets.meter other terms tokens nowUnix).2.2.spentOf id ≤ _
    by_cases same : other = id
    · obtain ⟨t, rfl, rfl, window⟩ := agreed same
      subst same
      have cutIff := meter_isCut_iff bounded.partitioned bounded.lifetime window tokens nowUnix
      rw [bounded.held] at cutIff
      by_cases isCut : (node.budgets.meter other (some t) tokens nowUnix).1.isCut = true
      · have added := saturatingAdd_le (node.budgets.spentOf other) tokens
        rw [if_pos rfl] at spent
        rw [if_pos ⟨isCut, rfl⟩, spent]
        omega
      · have within := mt cutIff.mpr isCut
        rw [if_neg (fun both => isCut both.1)]
        omega
    · rw [spent, if_neg same, if_neg (fun both => same both.2)]
      exact before

end

theorem bounded_preserved (id : CapId) (cap bound atStart : Nat) :
    Runs.PreservesWhen step (LifetimeCap id cap) (Bounded id cap bound atStart) := by
  intro node action after bounded agreed stepped
  cases action with
  | admitRequest other terms nowUnix =>
    obtain rfl := Option.some.inj stepped
    exact bounded.admitRequest agreed nowUnix
  | meter stream other terms tokens nowUnix =>
    simp only [step] at stepped
    split at stepped
    · cases stepped
    · rename_i running
      obtain rfl := Option.some.inj stepped
      exact bounded.meter agreed running tokens nowUnix

/-- From the moment a node is partitioned, through any calls of any streams under the one lifetime cap of a spender:
    once its counter has reached the smaller of the held share and the cap (and that is below `u64::MAX`, which no
    counter passes), every admission is denied; a call that takes the counter past it cuts its stream; and the counter
    is past it, and past what it was, by at most what the streams that were cut on the spender metered last. -/
theorem partition_bound {budgets : NodeBudgets} {id : CapId} {cap : Nat} {as : List Action} {s : PartitionedNode}
    (partitioned : budgets.partitioned = true) (stores : StoresCap id (some cap) budgets)
    (lifetime : Lifetime id budgets) (agreed : Runs.Along step (LifetimeCap id cap) (atPartition budgets) as)
    (executed : Runs.exec step (atPartition budgets) as = some s) :
    (∀ (t : CapTerms) (nowUnix : Nat), t.cap = cap → t.window = none → heldBound budgets id cap < u64Max →
      heldBound budgets id cap ≤ s.budgets.spentOf id →
        (s.budgets.admitRequest id (some t) nowUnix).1.isDeny = true) ∧
    (∀ (t : CapTerms) (tokens nowUnix : Nat), t.cap = cap → t.window = none →
      heldBound budgets id cap < (s.budgets.meter id (some t) tokens nowUnix).2.2.spentOf id →
        (s.budgets.meter id (some t) tokens nowUnix).1.isCut = true) ∧
    s.budgets.spentOf id ≤ max (budgets.spentOf id) (heldBound budgets id cap) + s.lastDeltas id := by
  have initial : Bounded id cap (heldBound budgets id cap) (budgets.spentOf id) (atPartition budgets) := by
    refine ⟨partitioned, stores, lifetime, rfl, ?_⟩
    simp [atPartition, lastDeltas]
  have bounded := Runs.exec_preserves_along (bounded_preserved id cap _ _) initial agreed executed
  refine ⟨?_, ?_, bounded.spent⟩
  · rintro t nowUnix rfl window below reached
    rw [admit_isDeny_iff bounded.partitioned bounded.stores bounded.lifetime window, bounded.held]
    exact ⟨reached, below⟩
  · rintro t tokens nowUnix rfl window past
    rw [meter_isCut_iff bounded.partitioned bounded.lifetime window, bounded.held]
    exact past

/-- A node that holds 40 tokens of a cap of 100 and has spent 30 of them when it is partitioned. -/
def holdsForty : NodeBudgets :=
  ((((NodeBudgets.new "n1").meter ⟨"team", "ml"⟩ (some ⟨100, none, 4 / 5⟩) 30 0).2.2).applyShares
    [(⟨"team", "ml"⟩, 100, 40)]).setPartitioned true

/-- Two streams pass the bound of 40 tokens, each with its last call. -/
theorem partition_bound_two_streams :
    let team : CapId := ⟨"team", "ml"⟩
    let terms : CapTerms := ⟨100, none, 4 / 5⟩
    let as : List Action :=
      [.meter 1 team (some terms) 8 0, .meter 2 team (some terms) 5 0, .meter 1 team (some terms) 4 0]
    let s := (Runs.exec step (atPartition holdsForty) as).getD (atPartition holdsForty)
    s.budgets.spentOf team = 47 ∧ s.budgets.spentOf team ≤ 40 + s.lastDeltas team ∧
      (s.budgets.admitRequest team (some terms) 0).1.isDeny = true := by
  intro team terms as s
  have executed : Runs.exec step (atPartition holdsForty) as = some s :=
    Runs.exec_eq_getD step _ as (by decide) _
  have stores : StoresCap team (some 100) holdsForty := by
    rw [NodeBudgets.storesCap_iff]
    decide
  have lifetime : Lifetime team holdsForty := by
    intro entry seen
    have windows : (holdsForty.inner[team]?).map (·.window) = some none := by decide
    rw [seen, Option.map_some, Option.some.injEq] at windows
    exact windows
  have agreed : Runs.Along step (LifetimeCap team 100) (atPartition holdsForty) as := by
    refine Runs.along_of_forall fun node action inside => ?_
    simp only [as, List.mem_cons, List.not_mem_nil, or_false] at inside
    rcases inside with rfl | rfl | rfl <;> exact fun _ => ⟨terms, rfl, rfl, rfl⟩
  have held : heldBound holdsForty team 100 = 40 := by decide
  have before : holdsForty.spentOf team = 30 := by decide
  have spent : s.budgets.spentOf team = 47 := by decide
  obtain ⟨denies, -, bound⟩ := partition_bound rfl stores lifetime agreed executed
  rw [held, before] at bound
  refine ⟨spent, bound, denies terms 0 rfl rfl ?_ ?_⟩
  · rw [held]
    decide
  · rw [held, spent]
    decide

/-- A cap of `u64::MAX` tokens that is spent to the last one still admits. -/
theorem full_counter_still_admits :
    ¬ ∀ (budgets : NodeBudgets) (id : CapId) (cap : Nat), budgets.partitioned = true →
        StoresCap id (some cap) budgets → Lifetime id budgets → ∀ (t : CapTerms) (nowUnix : Nat), t.cap = cap →
        t.window = none → heldBound budgets id cap ≤ budgets.spentOf id →
          (budgets.admitRequest id (some t) nowUnix).1.isDeny = true := by
  intro denies
  let team : CapId := ⟨"team", "ml"⟩
  let terms : CapTerms := ⟨u64Max, none, 4 / 5⟩
  let budgets := ((NodeBudgets.new "n1").meter team (some terms) u64Max 0).2.2.setPartitioned true
  have stores : StoresCap team (some u64Max) budgets := by
    rw [NodeBudgets.storesCap_iff]
    decide
  have lifetime : Lifetime team budgets := by
    intro entry seen
    have windows : (budgets.inner[team]?).map (·.window) = some none := by decide
    rw [seen, Option.map_some, Option.some.injEq] at windows
    exact windows
  have denied := denies budgets team u64Max rfl stores lifetime terms 0 rfl rfl (by decide)
  have allowed : (budgets.admitRequest team (some terms) 0).1.isDeny = false := by decide
  rw [allowed] at denied
  exact Bool.false_ne_true denied

end PartitionedNode

end SmallGateway
