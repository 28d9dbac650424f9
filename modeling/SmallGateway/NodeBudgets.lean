import SmallGateway.Budget
import SmallGateway.Lib.Runs

/-!
The data plane's spend ledger (`gatewayd/src/budget.rs`): one entry for each capped spender it has seen,
admission before the upstream is reached, metering while a stream runs, settlement at its end, and the
shares the control plane grants.

Every operation touches the entry of one spender, so each has a lemma for that entry (`admit_entry`,
`meter_entry`, `settle_entry`) and one for all others (`admit_other`, `meter_other`, `settle_other`).
-/

namespace SmallGateway

/-- One capped spender's state on a node. -/
structure Entry where
  budget : LocalBudget
  latch : AlertLatch
  window : Option Window
  windowId : Nat
  alertFraction : ℚ
  deriving DecidableEq, Repr

namespace Entry

/-- Starts the spend over when the clock has left the window the counter belongs to. -/
def roll (entry : Entry) (nowUnix : Nat) : Entry :=
  match entry.window with
  | none => entry
  | some window =>
    let id := window.idAt nowUnix
    if id ≠ entry.windowId then
      { entry with budget := entry.budget.resetWindowSpend, latch := .new, windowId := id }
    else entry

/-- Adopts the alert fraction and the window of the request's terms, then rolls. The cap of the terms is
    not adopted. -/
def syncTerms (entry : Entry) (terms : Option CapTerms) (nowUnix : Nat) : Entry :=
  match terms with
  | none => entry.roll nowUnix
  | some t =>
    let entry := { entry with alertFraction := t.alertFraction }
    if entry.window ≠ t.window then
      { entry with
        window := t.window
        windowId := (t.window.map (·.idAt nowUnix)).getD 0
        budget := entry.budget.resetWindowSpend
        latch := .new }
    else entry.roll nowUnix

@[simp] theorem roll_cap (entry : Entry) (nowUnix : Nat) :
    (entry.roll nowUnix).budget.cap = entry.budget.cap := by
  unfold roll
  split
  · rfl
  · dsimp only
    split <;> rfl

@[simp] theorem roll_window (entry : Entry) (nowUnix : Nat) :
    (entry.roll nowUnix).window = entry.window := by
  unfold roll
  split
  · rfl
  · dsimp only
    split <;> rfl

theorem roll_lifetime {entry : Entry} (lifetime : entry.window = none) (nowUnix : Nat) :
    entry.roll nowUnix = entry := by
  simp [roll, lifetime]

@[simp] theorem syncTerms_cap (entry : Entry) (terms : Option CapTerms) (nowUnix : Nat) :
    (entry.syncTerms terms nowUnix).budget.cap = entry.budget.cap := by
  unfold syncTerms
  cases terms with
  | none => exact roll_cap entry nowUnix
  | some t =>
    dsimp only
    split
    · rfl
    · rw [roll_cap]

/-- A lifetime entry synced to lifetime terms keeps its counter. -/
theorem syncTerms_lifetime {entry : Entry} {t : CapTerms} (lifetime : entry.window = none)
    (terms : t.window = none) (nowUnix : Nat) :
    entry.syncTerms (some t) nowUnix = { entry with alertFraction := t.alertFraction } := by
  simp [syncTerms, lifetime, terms, roll]

end Entry

/-- The node's whole ledger: an entry for each spender, the node's id and whether the control plane is
    unreachable. -/
structure NodeBudgets where
  nodeId : String
  inner : Std.TreeMap CapId Entry
  partitioned : Bool

/-- What to do with a running stream after metering more of its tokens. -/
inductive MeterOutcome where
  | continue
  | cut (id : CapId) (cap : Nat)
  deriving DecidableEq, Repr

def MeterOutcome.isCut : MeterOutcome → Bool
  | .cut _ _ => true
  | .continue => false

namespace NodeBudgets

def new (nodeId : String) : NodeBudgets := ⟨nodeId, ∅, false⟩

def setPartitioned (budgets : NodeBudgets) (on : Bool) : NodeBudgets :=
  { budgets with partitioned := on }

/-- The entry a spender gets when it is first seen: its share is the whole cap. -/
def freshEntry (id : CapId) (cap : Option Nat) : Entry :=
  ⟨.new id cap (cap.getD 0), .new, none, 0, softAlertFraction⟩

/-- The spender's entry, a fresh one when it has not been seen. -/
def ensure (budgets : NodeBudgets) (id : CapId) (cap : Option Nat) : Entry :=
  budgets.inner[id]?.getD (freshEntry id cap)

def put (budgets : NodeBudgets) (id : CapId) (entry : Entry) : NodeBudgets :=
  { budgets with inner := budgets.inner.insert id entry }

/-- Admits or refuses a request before it reaches the upstream, by probing with one token. -/
def admitRequest (budgets : NodeBudgets) (id : CapId) (terms : Option CapTerms) (nowUnix : Nat) :
    Verdict × NodeBudgets :=
  let entry := (budgets.ensure id (terms.map (·.cap))).syncTerms terms nowUnix
  (if budgets.partitioned then entry.budget.checkPartitioned 1 else entry.budget.check 1,
    budgets.put id entry)

/-- The bound a metered stream is cut at: the cap of the terms, and the held share too when the control
    plane is unreachable. -/
def meterBound (partitioned : Bool) (entry : Entry) (cap : Nat) : Nat :=
  if partitioned then min entry.budget.share cap else cap

/-- Records tokens of a running stream and decides whether it must be cut; the list is the alerts the
    spend newly crossed. -/
def meter (budgets : NodeBudgets) (id : CapId) (terms : Option CapTerms) (tokens nowUnix : Nat) :
    MeterOutcome × List Alert × NodeBudgets :=
  let entry := (budgets.ensure id (terms.map (·.cap))).syncTerms terms nowUnix
  let entry := { entry with budget := entry.budget.commit tokens }
  match terms with
  | none => (.continue, [], budgets.put id entry)
  | some t =>
    let (alerts, latch) :=
      entry.latch.cross id t.cap entry.budget.spent budgets.nodeId entry.alertFraction
    let entry := { entry with latch }
    let bound := meterBound budgets.partitioned entry t.cap
    (if entry.budget.spent > bound then .cut id t.cap else .continue, alerts, budgets.put id entry)

/-- Reconciles a stream's estimate to the provider's count, in the window that is open now. -/
def settle (budgets : NodeBudgets) (id : CapId) (estimated authoritative nowUnix : Nat) :
    NodeBudgets :=
  match budgets.inner[id]? with
  | none => budgets
  | some entry =>
    let entry := entry.roll nowUnix
    budgets.put id { entry with budget := entry.budget.reconcile estimated authoritative }

/-- End-of-stream settlement of every capped spender of a request. With no usage frame the estimate
    stands. -/
def settleAndLog (budgets : NodeBudgets) (caps : List (CapId × CapTerms)) (estimated : Nat)
    (authoritative : Option Nat) (nowUnix : Nat) : NodeBudgets :=
  match authoritative with
  | none => budgets
  | some auth => caps.foldl (fun budgets cap => budgets.settle cap.1 estimated auth nowUnix) budgets

/-- End-of-response settlement of a response that was not streamed: its whole count is metered at
    once. -/
def chargeTerminalAndLog (budgets : NodeBudgets) (caps : List (CapId × CapTerms))
    (charged nowUnix : Nat) : List MeterOutcome × List Alert × NodeBudgets :=
  caps.foldl
    (fun (outcomes, alerts, budgets) cap =>
      let (outcome, raised, budgets) := budgets.meter cap.1 (some cap.2) charged nowUnix
      (outcomes ++ [outcome], alerts ++ raised, budgets))
    ([], [], budgets)

/-- Sets the granted shares; a spender not seen yet gets an entry with the granted cap. -/
def applyShares (budgets : NodeBudgets) (grants : List (CapId × Nat × Nat)) : NodeBudgets :=
  grants.foldl
    (fun budgets grant =>
      let entry := budgets.ensure grant.1 (some grant.2.1)
      budgets.put grant.1 { entry with budget := entry.budget.setShare grant.2.2 })
    budgets

/-- Every entry rolled to the window that is open now. -/
def rollAll (budgets : NodeBudgets) (nowUnix : Nat) : NodeBudgets :=
  { budgets with inner := budgets.inner.map fun _ entry => entry.roll nowUnix }

/-- Cap and spend of the capped spenders whose entries are kept. -/
def cappedEntries (budgets : NodeBudgets) (keep : Entry → Bool) : List (CapId × Nat × Nat) :=
  budgets.inner.toList.filterMap fun (id, entry) =>
    match entry.budget.cap with
    | none => none
    | some cap => if keep entry then some (id, cap, entry.budget.spent) else none

/-- The spend to report: every capped spender with any spend in its window. -/
def spendReport (budgets : NodeBudgets) (nowUnix : Nat) : List (CapId × Nat × Nat) × NodeBudgets :=
  let budgets := budgets.rollAll nowUnix
  (budgets.cappedEntries fun entry => entry.budget.spent != 0, budgets)

/-- The capped spenders that have consumed the escalation fraction of their share. -/
def escalating (budgets : NodeBudgets) (nowUnix : Nat) : List (CapId × Nat × Nat) × NodeBudgets :=
  let budgets := budgets.rollAll nowUnix
  (budgets.cappedEntries fun entry => entry.budget.consumedFraction ≥ escalationFraction, budgets)

/-- The tokens on a spender's counter, none when it has no entry. -/
def spentOf (budgets : NodeBudgets) (id : CapId) : Nat :=
  (budgets.inner[id]?.map (·.budget.spent)).getD 0

/-! ### What each operation does to the entries -/

@[simp] theorem put_entry (budgets : NodeBudgets) (id : CapId) (entry : Entry) :
    (budgets.put id entry).inner[id]? = some entry := by
  simp [put]

theorem put_other (budgets : NodeBudgets) {id other : CapId} (entry : Entry) (different : other ≠ id) :
    (budgets.put id entry).inner[other]? = budgets.inner[other]? := by
  simp [put, Std.TreeMap.getElem?_insert, different.symm]

@[simp] theorem put_partitioned (budgets : NodeBudgets) (id : CapId) (entry : Entry) :
    (budgets.put id entry).partitioned = budgets.partitioned := rfl

theorem ensure_seen {budgets : NodeBudgets} {id : CapId} {entry : Entry}
    (seen : budgets.inner[id]? = some entry) (cap : Option Nat) : budgets.ensure id cap = entry := by
  simp [ensure, seen]

theorem ensure_unseen {budgets : NodeBudgets} {id : CapId} (unseen : budgets.inner[id]? = none)
    (cap : Option Nat) : budgets.ensure id cap = freshEntry id cap := by
  simp [ensure, unseen]

theorem ensure_spent (budgets : NodeBudgets) (id : CapId) (cap : Option Nat) :
    (budgets.ensure id cap).budget.spent = budgets.spentOf id := by
  cases seen : budgets.inner[id]? with
  | none => simp [ensure, spentOf, seen, freshEntry, LocalBudget.new]
  | some entry => simp [ensure, spentOf, seen]

theorem admit_entry (budgets : NodeBudgets) (id : CapId) (terms : Option CapTerms) (nowUnix : Nat) :
    (budgets.admitRequest id terms nowUnix).2.inner[id]? =
      some ((budgets.ensure id (terms.map (·.cap))).syncTerms terms nowUnix) := by
  simp [admitRequest]

theorem admit_other (budgets : NodeBudgets) {id other : CapId} (terms : Option CapTerms)
    (nowUnix : Nat) (different : other ≠ id) :
    (budgets.admitRequest id terms nowUnix).2.inner[other]? = budgets.inner[other]? :=
  put_other budgets _ different

/-- Metering adds the tokens to the synced entry; only its latch depends on the alerts raised. -/
theorem meter_entry (budgets : NodeBudgets) (id : CapId) (terms : Option CapTerms)
    (tokens nowUnix : Nat) :
    ∃ latch, (budgets.meter id terms tokens nowUnix).2.2.inner[id]? =
      some { (budgets.ensure id (terms.map (·.cap))).syncTerms terms nowUnix with
        budget :=
          ((budgets.ensure id (terms.map (·.cap))).syncTerms terms nowUnix).budget.commit tokens
        latch := latch } := by
  cases terms with
  | none => exact ⟨_, put_entry budgets id _⟩
  | some t => exact ⟨_, put_entry budgets id _⟩

theorem meter_other (budgets : NodeBudgets) {id other : CapId} (terms : Option CapTerms)
    (tokens nowUnix : Nat) (different : other ≠ id) :
    (budgets.meter id terms tokens nowUnix).2.2.inner[other]? = budgets.inner[other]? := by
  cases terms with
  | none => exact put_other budgets _ different
  | some t => exact put_other budgets _ different

theorem settle_unseen {budgets : NodeBudgets} {id : CapId} (unseen : budgets.inner[id]? = none)
    (estimated authoritative nowUnix : Nat) :
    budgets.settle id estimated authoritative nowUnix = budgets := by
  simp [settle, unseen]

theorem settle_entry {budgets : NodeBudgets} {id : CapId} {entry : Entry}
    (seen : budgets.inner[id]? = some entry) (estimated authoritative nowUnix : Nat) :
    (budgets.settle id estimated authoritative nowUnix).inner[id]? =
      some { entry.roll nowUnix with
        budget := (entry.roll nowUnix).budget.reconcile estimated authoritative } := by
  simp [settle, seen]

theorem settle_other (budgets : NodeBudgets) {id other : CapId}
    (estimated authoritative nowUnix : Nat) (different : other ≠ id) :
    (budgets.settle id estimated authoritative nowUnix).inner[other]? = budgets.inner[other]? := by
  unfold settle
  split
  · rfl
  · exact put_other budgets _ different

/-- One grant of a share. -/
def applyShare (budgets : NodeBudgets) (grant : CapId × Nat × Nat) : NodeBudgets :=
  let entry := budgets.ensure grant.1 (some grant.2.1)
  budgets.put grant.1 { entry with budget := entry.budget.setShare grant.2.2 }

theorem applyShares_eq (budgets : NodeBudgets) (grants : List (CapId × Nat × Nat)) :
    budgets.applyShares grants = grants.foldl applyShare budgets := rfl

theorem applyShare_entry (budgets : NodeBudgets) (id : CapId) (cap share : Nat) :
    (budgets.applyShare (id, cap, share)).inner[id]? =
      some { budgets.ensure id (some cap) with
        budget := (budgets.ensure id (some cap)).budget.setShare share } := by
  simp [applyShare]

theorem applyShare_other (budgets : NodeBudgets) (grant : CapId × Nat × Nat) {other : CapId}
    (different : other ≠ grant.1) :
    (budgets.applyShare grant).inner[other]? = budgets.inner[other]? :=
  put_other budgets _ different

theorem rollAll_entry (budgets : NodeBudgets) (id : CapId) (nowUnix : Nat) :
    (budgets.rollAll nowUnix).inner[id]? = budgets.inner[id]?.map (·.roll nowUnix) := by
  simp [rollAll]

theorem mem_cappedEntries {budgets : NodeBudgets} {keep : Entry → Bool} {spender : CapId × Nat × Nat} :
    spender ∈ budgets.cappedEntries keep ↔
      ∃ entry, budgets.inner[spender.1]? = some entry ∧ entry.budget.cap = some spender.2.1 ∧
        entry.budget.spent = spender.2.2 ∧ keep entry = true := by
  obtain ⟨id, cap, spent⟩ := spender
  simp only [cappedEntries, List.mem_filterMap]
  constructor
  · rintro ⟨⟨other, entry⟩, inside, made⟩
    have seen := Std.TreeMap.mem_toList_iff_getElem?_eq_some.mp inside
    cases stored : entry.budget.cap with
    | none => simp [stored] at made
    | some known =>
      by_cases kept : keep entry = true
      · simp only [stored, kept, if_true, Option.some.injEq, Prod.mk.injEq] at made
        obtain ⟨rfl, rfl, rfl⟩ := made
        exact ⟨entry, seen, stored, rfl, kept⟩
      · simp [stored, kept] at made
  · rintro ⟨entry, seen, stored, rfl, kept⟩
    exact ⟨(id, entry), Std.TreeMap.mem_toList_iff_getElem?_eq_some.mpr seen, by simp [stored, kept]⟩

theorem mem_spendReport {budgets : NodeBudgets} {nowUnix : Nat} {spender : CapId × Nat × Nat} :
    spender ∈ (budgets.spendReport nowUnix).1 ↔
      ∃ entry, (budgets.rollAll nowUnix).inner[spender.1]? = some entry ∧
        entry.budget.cap = some spender.2.1 ∧ entry.budget.spent = spender.2.2 ∧
        entry.budget.spent ≠ 0 := by
  simp [spendReport, mem_cappedEntries]

theorem mem_escalating {budgets : NodeBudgets} {nowUnix : Nat} {spender : CapId × Nat × Nat} :
    spender ∈ (budgets.escalating nowUnix).1 ↔
      ∃ entry, (budgets.rollAll nowUnix).inner[spender.1]? = some entry ∧
        entry.budget.cap = some spender.2.1 ∧ entry.budget.spent = spender.2.2 ∧
        entry.budget.consumedFraction ≥ escalationFraction := by
  simp [escalating, mem_cappedEntries]

/-! ### Lifetime spenders -/

/-- The spender's entry, when there is one, has no billing window. -/
def Lifetime (id : CapId) (budgets : NodeBudgets) : Prop :=
  ∀ entry, budgets.inner[id]? = some entry → entry.window = none

theorem new_lifetime (nodeId : String) (id : CapId) : Lifetime id (new nodeId) := by
  intro entry seen
  simp [new] at seen

theorem Lifetime.of_entry {before after : NodeBudgets} {id : CapId} (lifetime : Lifetime id before)
    (same : after.inner[id]? = before.inner[id]?) : Lifetime id after := by
  intro entry seen
  exact lifetime entry (same ▸ seen)

theorem Lifetime.ensure {budgets : NodeBudgets} {id : CapId} (lifetime : Lifetime id budgets)
    (cap : Option Nat) : (budgets.ensure id cap).window = none := by
  cases seen : budgets.inner[id]? with
  | none => rw [ensure_unseen seen]; rfl
  | some entry => rw [ensure_seen seen]; exact lifetime entry seen

theorem spentOf_entry {budgets : NodeBudgets} {id : CapId} {entry : Entry}
    (seen : budgets.inner[id]? = some entry) : budgets.spentOf id = entry.budget.spent := by
  simp [spentOf, seen]

theorem spentOf_congr {before after : NodeBudgets} {id : CapId}
    (same : after.inner[id]? = before.inner[id]?) : after.spentOf id = before.spentOf id := by
  simp [spentOf, same]

section

variable {budgets : NodeBudgets} {id other : CapId} {terms : Option CapTerms}

theorem Lifetime.syncTerms_budget (lifetime : Lifetime id budgets)
    (window : ∀ t, terms = some t → t.window = none) (nowUnix : Nat) :
    let synced := (budgets.ensure id (terms.map (·.cap))).syncTerms terms nowUnix
    synced.window = none ∧ synced.budget = (budgets.ensure id (terms.map (·.cap))).budget := by
  have unwindowed := lifetime.ensure (terms.map (·.cap))
  cases terms with
  | none =>
    refine ⟨?_, ?_⟩ <;>
      simp only [Entry.syncTerms, Entry.roll_lifetime unwindowed]
    exact unwindowed
  | some t =>
    rw [Entry.syncTerms_lifetime unwindowed (window t rfl)]
    exact ⟨unwindowed, rfl⟩

theorem Lifetime.admitRequest (lifetime : Lifetime id budgets)
    (window : other = id → ∀ t, terms = some t → t.window = none) (nowUnix : Nat) :
    Lifetime id (budgets.admitRequest other terms nowUnix).2 ∧
      (budgets.admitRequest other terms nowUnix).2.spentOf id = budgets.spentOf id := by
  by_cases same : other = id
  · subst same
    obtain ⟨unwindowed, kept⟩ := lifetime.syncTerms_budget (window rfl) nowUnix
    have seen := admit_entry budgets other terms nowUnix
    refine ⟨fun entry found => ?_, ?_⟩
    · rw [seen, Option.some.injEq] at found
      rw [← found]
      exact unwindowed
    · rw [spentOf_entry seen, kept]
      exact ensure_spent budgets other _
  · have kept := admit_other budgets terms nowUnix (Ne.symm same)
    exact ⟨lifetime.of_entry kept, spentOf_congr kept⟩

theorem Lifetime.meter (lifetime : Lifetime id budgets)
    (window : other = id → ∀ t, terms = some t → t.window = none) (tokens nowUnix : Nat) :
    Lifetime id (budgets.meter other terms tokens nowUnix).2.2 ∧
      (budgets.meter other terms tokens nowUnix).2.2.spentOf id =
        if other = id then saturatingAdd (budgets.spentOf id) tokens else budgets.spentOf id := by
  by_cases same : other = id
  · subst same
    obtain ⟨unwindowed, kept⟩ := lifetime.syncTerms_budget (window rfl) nowUnix
    obtain ⟨latch, seen⟩ := meter_entry budgets other terms tokens nowUnix
    refine ⟨fun entry found => ?_, ?_⟩
    · rw [seen, Option.some.injEq] at found
      rw [← found]
      exact unwindowed
    · rw [spentOf_entry seen, if_pos rfl, LocalBudget.commit_spent, kept, ensure_spent]
  · have kept := meter_other budgets terms tokens nowUnix (Ne.symm same)
    rw [if_neg same]
    exact ⟨lifetime.of_entry kept, spentOf_congr kept⟩

/-- Metering the tokens now would pass the bound of the spender, in the window that is open now. -/
def PassesBound (budgets : NodeBudgets) (id : CapId) (t : CapTerms) (tokens nowUnix : Nat) : Prop :=
  let entry := (budgets.ensure id (some t.cap)).syncTerms (some t) nowUnix
  meterBound budgets.partitioned entry t.cap < saturatingAdd entry.budget.spent tokens

instance (budgets : NodeBudgets) (id : CapId) (t : CapTerms) (tokens nowUnix : Nat) :
    Decidable (budgets.PassesBound id t tokens nowUnix) :=
  inferInstanceAs (Decidable (_ < _))

/-- Metering cuts exactly when it passes the bound. -/
theorem meter_isCut (budgets : NodeBudgets) (id : CapId) (t : CapTerms) (tokens nowUnix : Nat) :
    (budgets.meter id (some t) tokens nowUnix).1.isCut = true ↔ budgets.PassesBound id t tokens nowUnix := by
  have outcome : (budgets.meter id (some t) tokens nowUnix).1 =
      if budgets.PassesBound id t tokens nowUnix then .cut id t.cap else .continue := rfl
  rw [outcome]
  by_cases passes : budgets.PassesBound id t tokens nowUnix
  · simp [passes, MeterOutcome.isCut]
  · simp [passes, MeterOutcome.isCut]

/-- The bound a metered spender is cut at, from the state before the call. -/
def cutBound (budgets : NodeBudgets) (id : CapId) (t : CapTerms) : Nat :=
  meterBound budgets.partitioned (budgets.ensure id (some t.cap)) t.cap

/-- A lifetime spender passes its bound exactly when its counter does. -/
theorem Lifetime.passesBound {t : CapTerms} (lifetime : Lifetime id budgets) (window : t.window = none)
    (tokens nowUnix : Nat) :
    budgets.PassesBound id t tokens nowUnix ↔
      budgets.cutBound id t < saturatingAdd (budgets.spentOf id) tokens := by
  have unwindowed := lifetime.ensure (some t.cap)
  simp [PassesBound, Entry.syncTerms_lifetime unwindowed window, cutBound, meterBound, ensure_spent]

/-- Metering a lifetime spender cuts exactly when its counter passes the bound. -/
theorem Lifetime.meter_isCut {t : CapTerms} (lifetime : Lifetime id budgets) (window : t.window = none)
    (tokens nowUnix : Nat) :
    (budgets.meter id (some t) tokens nowUnix).1.isCut = true ↔
      budgets.cutBound id t < saturatingAdd (budgets.spentOf id) tokens :=
  (NodeBudgets.meter_isCut budgets id t tokens nowUnix).trans (lifetime.passesBound window tokens nowUnix)

theorem Lifetime.settle (lifetime : Lifetime id budgets) (estimated authoritative nowUnix : Nat) :
    Lifetime id (budgets.settle other estimated authoritative nowUnix) := by
  by_cases same : other = id
  · subst same
    cases seen : budgets.inner[other]? with
    | none => rwa [settle_unseen seen]
    | some entry =>
      intro found settled
      rw [settle_entry seen, Option.some.injEq] at settled
      rw [← settled]
      exact (Entry.roll_window entry nowUnix).trans (lifetime entry seen)
  · exact lifetime.of_entry (settle_other budgets estimated authoritative nowUnix (Ne.symm same))

/-- Settlement of a spender with a lifetime entry replaces the estimate by the provider's count. -/
theorem Lifetime.settle_spentOf (lifetime : Lifetime id budgets) {entry : Entry}
    (seen : budgets.inner[id]? = some entry) (estimated authoritative nowUnix : Nat) :
    (budgets.settle id estimated authoritative nowUnix).spentOf id =
      if authoritative ≥ estimated then saturatingAdd (budgets.spentOf id) (authoritative - estimated)
      else budgets.spentOf id - (estimated - authoritative) := by
  rw [spentOf_entry (settle_entry seen estimated authoritative nowUnix), LocalBudget.reconcile_spent,
    Entry.roll_lifetime (lifetime entry seen), spentOf_entry seen]

theorem settle_spentOf_other (estimated authoritative nowUnix : Nat) (different : id ≠ other) :
    (budgets.settle other estimated authoritative nowUnix).spentOf id = budgets.spentOf id :=
  spentOf_congr (settle_other budgets estimated authoritative nowUnix different)

theorem Lifetime.settle_spentOf_le (lifetime : Lifetime id budgets)
    (estimated authoritative nowUnix : Nat) :
    (budgets.settle other estimated authoritative nowUnix).spentOf id ≤
      budgets.spentOf id + if other = id then authoritative - estimated else 0 := by
  by_cases same : other = id
  · subst same
    cases seen : budgets.inner[other]? with
    | none =>
      rw [settle_unseen seen]
      exact Nat.le_add_right _ _
    | some entry =>
      rw [spentOf_entry (settle_entry seen estimated authoritative nowUnix), spentOf_entry seen,
        Entry.roll_lifetime (lifetime entry seen), if_pos rfl]
      exact LocalBudget.reconcile_spent_le entry.budget estimated authoritative
  · rw [settle_spentOf_other estimated authoritative nowUnix (Ne.symm same)]
    exact Nat.le_add_right _ _

theorem Lifetime.applyShare (lifetime : Lifetime id budgets) (grant : CapId × Nat × Nat) :
    Lifetime id (budgets.applyShare grant) ∧
      (budgets.applyShare grant).spentOf id = budgets.spentOf id := by
  by_cases same : grant.1 = id
  · subst same
    have seen := applyShare_entry budgets grant.1 grant.2.1 grant.2.2
    refine ⟨fun entry found => ?_, ?_⟩
    · rw [seen, Option.some.injEq] at found
      rw [← found]
      exact lifetime.ensure _
    · rw [spentOf_entry seen, LocalBudget.setShare_spent, ensure_spent]
  · have kept := applyShare_other budgets grant (Ne.symm same)
    exact ⟨lifetime.of_entry kept, spentOf_congr kept⟩

/-- Grants move shares and never the spend. -/
theorem Lifetime.applyShares (lifetime : Lifetime id budgets) (grants : List (CapId × Nat × Nat)) :
    Lifetime id (budgets.applyShares grants) ∧
      (budgets.applyShares grants).spentOf id = budgets.spentOf id := by
  rw [applyShares_eq]
  induction grants generalizing budgets with
  | nil => exact ⟨lifetime, rfl⟩
  | cons grant grants ih =>
    obtain ⟨still, kept⟩ := lifetime.applyShare grant
    obtain ⟨last, same⟩ := ih still
    exact ⟨last, same.trans kept⟩

theorem Lifetime.rollAll (lifetime : Lifetime id budgets) (nowUnix : Nat) :
    Lifetime id (budgets.rollAll nowUnix) ∧
      (budgets.rollAll nowUnix).spentOf id = budgets.spentOf id := by
  have same : (budgets.rollAll nowUnix).inner[id]? = budgets.inner[id]? := by
    rw [rollAll_entry]
    cases seen : budgets.inner[id]? with
    | none => rfl
    | some entry => rw [Option.map_some, Entry.roll_lifetime (lifetime entry seen)]
  exact ⟨lifetime.of_entry same, spentOf_congr same⟩

end

@[simp] theorem admit_partitioned (budgets : NodeBudgets) (id : CapId) (terms : Option CapTerms)
    (nowUnix : Nat) : (budgets.admitRequest id terms nowUnix).2.partitioned = budgets.partitioned := rfl

@[simp] theorem meter_partitioned (budgets : NodeBudgets) (id : CapId) (terms : Option CapTerms)
    (tokens nowUnix : Nat) :
    (budgets.meter id terms tokens nowUnix).2.2.partitioned = budgets.partitioned := by
  cases terms <;> rfl

@[simp] theorem settle_partitioned (budgets : NodeBudgets) (id : CapId)
    (estimated authoritative nowUnix : Nat) :
    (budgets.settle id estimated authoritative nowUnix).partitioned = budgets.partitioned := by
  unfold settle
  split <;> rfl

@[simp] theorem applyShares_partitioned (budgets : NodeBudgets) (grants : List (CapId × Nat × Nat)) :
    (budgets.applyShares grants).partitioned = budgets.partitioned := by
  rw [applyShares_eq]
  induction grants generalizing budgets with
  | nil => rfl
  | cons grant grants ih => exact ih (budgets.applyShare grant)

@[simp] theorem rollAll_partitioned (budgets : NodeBudgets) (nowUnix : Nat) :
    (budgets.rollAll nowUnix).partitioned = budgets.partitioned := rfl

/-! ### Runs of a node's ledger -/

/-- One call on the ledger. -/
inductive Op where
  | admitRequest (id : CapId) (terms : Option CapTerms) (nowUnix : Nat)
  | meter (id : CapId) (terms : Option CapTerms) (tokens nowUnix : Nat)
  | settle (id : CapId) (estimated authoritative nowUnix : Nat)
  | applyShares (grants : List (CapId × Nat × Nat))
  | setPartitioned (on : Bool)
  | spendReport (nowUnix : Nat)
  | escalating (nowUnix : Nat)

/-- The ledger after a call. Every call is enabled in every state. -/
def step (budgets : NodeBudgets) : Op → Option NodeBudgets
  | .admitRequest id terms nowUnix => some (budgets.admitRequest id terms nowUnix).2
  | .meter id terms tokens nowUnix => some (budgets.meter id terms tokens nowUnix).2.2
  | .settle id estimated authoritative nowUnix =>
    some (budgets.settle id estimated authoritative nowUnix)
  | .applyShares grants => some (budgets.applyShares grants)
  | .setPartitioned on => some (budgets.setPartitioned on)
  | .spendReport nowUnix => some (budgets.spendReport nowUnix).2
  | .escalating nowUnix => some (budgets.escalating nowUnix).2

/-- The caps a call names for a spender: those of its terms or of its grants. -/
def Op.capsNamed (id : CapId) : Op → List (Option Nat)
  | .admitRequest other terms _ => if other = id then [terms.map (·.cap)] else []
  | .meter other terms _ _ => if other = id then [terms.map (·.cap)] else []
  | .applyShares grants =>
    grants.filterMap fun grant => if grant.1 = id then some (some grant.2.1) else none
  | _ => []

/-- The spender's entry, when there is one, stores this cap. -/
def StoresCap (id : CapId) (cap : Option Nat) (budgets : NodeBudgets) : Prop :=
  ∀ entry, budgets.inner[id]? = some entry → entry.budget.cap = cap

/-- Every call that names the spender names this one cap. -/
def NamesOnly (id : CapId) (cap : Option Nat) (_ : NodeBudgets) (op : Op) : Prop :=
  ∀ named ∈ op.capsNamed id, named = cap

theorem new_storesCap (nodeId : String) (id : CapId) (cap : Option Nat) :
    StoresCap id cap (new nodeId) := by
  intro entry seen
  simp [new] at seen

/-- The cap in the spender's entry, when there is one. -/
def storedCap (budgets : NodeBudgets) (id : CapId) : Option (Option Nat) :=
  (budgets.inner[id]?).map (·.budget.cap)

theorem storedCap_entry {budgets : NodeBudgets} {id : CapId} {entry : Entry}
    (seen : budgets.inner[id]? = some entry) : budgets.storedCap id = some entry.budget.cap := by
  simp [storedCap, seen]

theorem storedCap_congr {before after : NodeBudgets} {id : CapId}
    (same : after.inner[id]? = before.inner[id]?) : after.storedCap id = before.storedCap id := by
  simp [storedCap, same]

/-- An entry keeps the cap it has; a spender without one gets the cap that is named. -/
theorem ensure_storedCap (budgets : NodeBudgets) (id : CapId) (cap : Option Nat) :
    some (budgets.ensure id cap).budget.cap = (budgets.storedCap id).or (some cap) := by
  cases seen : budgets.inner[id]? with
  | none => simp [ensure_unseen seen, storedCap, seen, freshEntry, LocalBudget.new]
  | some entry => simp [ensure_seen seen, storedCap, seen]

/-- What is read of an entry after a grant of shares, where the first grant to a spender without an entry begins it and
    no other grant changes what is read. -/
theorem applyShares_read {β : Type} (read : NodeBudgets → Option β) (begun : Option Nat → β) (id : CapId)
    (own : ∀ budgets granted share,
      read (budgets.applyShare (id, granted, share)) = (read budgets).or (some (begun (some granted))))
    (others : ∀ budgets grant, grant.1 ≠ id → read (budgets.applyShare grant) = read budgets)
    (grants : List (CapId × Nat × Nat)) (budgets : NodeBudgets) :
    read (budgets.applyShares grants) =
      (read budgets).or (((Op.applyShares grants).capsNamed id).head?.map begun) := by
  rw [applyShares_eq]
  induction grants generalizing budgets with
  | nil => simp [Op.capsNamed]
  | cons grant grants ih =>
    obtain ⟨other, granted, share⟩ := grant
    rw [List.foldl_cons, ih]
    by_cases same : other = id
    · subst same
      rw [own, Option.or_assoc]
      simp [Op.capsNamed]
    · rw [others budgets _ same]
      simp [Op.capsNamed, same]

theorem applyShares_storedCap (grants : List (CapId × Nat × Nat)) (budgets : NodeBudgets) (id : CapId) :
    (budgets.applyShares grants).storedCap id =
      (budgets.storedCap id).or ((Op.applyShares grants).capsNamed id).head? := by
  have read := applyShares_read (fun budgets => budgets.storedCap id) (fun cap => cap) id ?_ ?_ grants budgets
  · rwa [Option.map_id'] at read
  · intro budgets granted share
    rw [storedCap_entry (applyShare_entry budgets id granted share), LocalBudget.setShare_cap, ensure_storedCap]
  · exact fun budgets grant other => storedCap_congr (applyShare_other budgets grant (Ne.symm other))

theorem rollAll_storedCap (budgets : NodeBudgets) (nowUnix : Nat) (id : CapId) :
    (budgets.rollAll nowUnix).storedCap id = budgets.storedCap id := by
  unfold storedCap
  rw [rollAll_entry]
  cases budgets.inner[id]? with
  | none => rfl
  | some entry => simp

/-- A call leaves the cap of an entry alone, and gives a new entry the cap that it names first. -/
theorem step_storedCap {budgets after : NodeBudgets} {op : Op} (stepped : budgets.step op = some after)
    (id : CapId) : after.storedCap id = (budgets.storedCap id).or (op.capsNamed id).head? := by
  cases op with
  | admitRequest other terms nowUnix =>
    obtain rfl := Option.some.inj stepped
    by_cases same : other = id
    · subst same
      rw [storedCap_entry (admit_entry budgets other terms nowUnix), Entry.syncTerms_cap, ensure_storedCap]
      simp [Op.capsNamed]
    · rw [storedCap_congr (admit_other budgets terms nowUnix (Ne.symm same))]
      simp [Op.capsNamed, same]
  | meter other terms tokens nowUnix =>
    obtain rfl := Option.some.inj stepped
    by_cases same : other = id
    · subst same
      obtain ⟨latch, seen⟩ := meter_entry budgets other terms tokens nowUnix
      rw [storedCap_entry seen, LocalBudget.commit_cap, Entry.syncTerms_cap, ensure_storedCap]
      simp [Op.capsNamed]
    · rw [storedCap_congr (meter_other budgets terms tokens nowUnix (Ne.symm same))]
      simp [Op.capsNamed, same]
  | settle other estimated authoritative nowUnix =>
    obtain rfl := Option.some.inj stepped
    have none : (Op.settle other estimated authoritative nowUnix).capsNamed id = [] := rfl
    rw [none, List.head?_nil, Option.or_none]
    by_cases same : other = id
    · subst same
      cases seen : budgets.inner[other]? with
      | none => rw [settle_unseen seen]
      | some entry =>
        rw [storedCap_entry (settle_entry seen estimated authoritative nowUnix), LocalBudget.reconcile_cap,
          Entry.roll_cap, storedCap_entry seen]
    · exact storedCap_congr (settle_other budgets estimated authoritative nowUnix (Ne.symm same))
  | applyShares grants =>
    obtain rfl := Option.some.inj stepped
    exact applyShares_storedCap grants budgets id
  | setPartitioned on =>
    obtain rfl := Option.some.inj stepped
    exact (Option.or_none).symm
  | spendReport nowUnix =>
    obtain rfl := Option.some.inj stepped
    exact (rollAll_storedCap budgets nowUnix id).trans (Option.or_none).symm
  | escalating nowUnix =>
    obtain rfl := Option.some.inj stepped
    exact (rollAll_storedCap budgets nowUnix id).trans (Option.or_none).symm

theorem storesCap_iff {budgets : NodeBudgets} {id : CapId} {cap : Option Nat} :
    StoresCap id cap budgets ↔ ∀ stored ∈ budgets.storedCap id, stored = cap := by
  simp [StoresCap, storedCap]

theorem StoresCap.ensure {budgets : NodeBudgets} {id : CapId} {cap : Option Nat}
    (stores : StoresCap id cap budgets) : (budgets.ensure id cap).budget.cap = cap := by
  cases seen : budgets.inner[id]? with
  | none => rw [ensure_unseen seen]; rfl
  | some entry => rw [ensure_seen seen]; exact stores entry seen

theorem StoresCap.rollAll {budgets : NodeBudgets} {id : CapId} {cap : Option Nat}
    (stores : StoresCap id cap budgets) (nowUnix : Nat) : StoresCap id cap (budgets.rollAll nowUnix) := by
  rw [storesCap_iff] at stores ⊢
  rwa [rollAll_storedCap]

/-- A run that only ever names one cap for a spender stores that cap. -/
theorem storesCap_preserved (id : CapId) (cap : Option Nat) :
    Runs.PreservesWhen step (NamesOnly id cap) (StoresCap id cap) := by
  intro budgets op after stores named stepped
  rw [storesCap_iff] at stores ⊢
  rw [step_storedCap stepped id]
  intro stored found
  rcases Option.or_eq_some_iff.mp found with before | ⟨-, created⟩
  · exact stores stored before
  · exact named stored (List.mem_of_mem_head? created)

theorem StoresCap.applyShares {id : CapId} {cap : Option Nat} (grants : List (CapId × Nat × Nat))
    {budgets : NodeBudgets} (stores : StoresCap id cap budgets)
    (named : ∀ grant ∈ grants, grant.1 = id → some grant.2.1 = cap) :
    StoresCap id cap (budgets.applyShares grants) := by
  refine storesCap_preserved id cap budgets (.applyShares grants) _ stores ?_ rfl
  intro granted inside
  obtain ⟨grant, member, made⟩ := List.mem_filterMap.mp inside
  by_cases same : grant.1 = id
  · simp only [same, if_true, Option.some.injEq] at made
    exact made ▸ named grant member same
  · simp [same] at made

/-- A call that names the spender names it with lifetime terms. -/
def Op.LifetimeFor (id : CapId) : Op → Prop
  | .admitRequest other terms _ => other = id → ∀ t, terms = some t → t.window = none
  | .meter other terms _ _ => other = id → ∀ t, terms = some t → t.window = none
  | _ => True

theorem lifetime_preserved (id : CapId) :
    Runs.PreservesWhen step (fun _ op => op.LifetimeFor id) (Lifetime id) := by
  intro budgets op after lifetime windowless stepped
  cases op with
  | admitRequest other terms nowUnix =>
    obtain rfl := Option.some.inj stepped
    exact (lifetime.admitRequest windowless nowUnix).1
  | meter other terms tokens nowUnix =>
    obtain rfl := Option.some.inj stepped
    exact (lifetime.meter windowless tokens nowUnix).1
  | settle other estimated authoritative nowUnix =>
    obtain rfl := Option.some.inj stepped
    exact lifetime.settle estimated authoritative nowUnix
  | applyShares grants =>
    obtain rfl := Option.some.inj stepped
    exact (lifetime.applyShares grants).1
  | setPartitioned on =>
    obtain rfl := Option.some.inj stepped
    exact lifetime
  | spendReport nowUnix =>
    obtain rfl := Option.some.inj stepped
    exact (lifetime.rollAll nowUnix).1
  | escalating nowUnix =>
    obtain rfl := Option.some.inj stepped
    exact (lifetime.rollAll nowUnix).1

/-- The spender has an entry. -/
def Seen (id : CapId) (budgets : NodeBudgets) : Prop := ∃ entry, budgets.inner[id]? = some entry

theorem Seen.of_touched {before after : NodeBudgets} {id other : CapId} (seen : Seen id before)
    (touched : Seen other after)
    (others : id ≠ other → after.inner[id]? = before.inner[id]?) : Seen id after := by
  by_cases same : id = other
  · subst same
    exact touched
  · obtain ⟨entry, found⟩ := seen
    exact ⟨entry, (others same).trans found⟩

theorem Seen.applyShares {id : CapId} (grants : List (CapId × Nat × Nat)) {budgets : NodeBudgets}
    (seen : Seen id budgets) : Seen id (budgets.applyShares grants) := by
  rw [applyShares_eq]
  induction grants generalizing budgets with
  | nil => exact seen
  | cons grant grants ih =>
    exact ih (seen.of_touched ⟨_, applyShare_entry budgets grant.1 grant.2.1 grant.2.2⟩
      fun different => applyShare_other budgets grant different)

theorem Seen.rollAll {id : CapId} {budgets : NodeBudgets} (seen : Seen id budgets) (nowUnix : Nat) :
    Seen id (budgets.rollAll nowUnix) := by
  obtain ⟨entry, found⟩ := seen
  exact ⟨entry.roll nowUnix, by rw [rollAll_entry, found, Option.map_some]⟩

theorem Seen.meter {id : CapId} {budgets : NodeBudgets} (seen : Seen id budgets) (other : CapId)
    (terms : Option CapTerms) (tokens nowUnix : Nat) :
    Seen id (budgets.meter other terms tokens nowUnix).2.2 := by
  obtain ⟨latch, touched⟩ := meter_entry budgets other terms tokens nowUnix
  exact seen.of_touched ⟨_, touched⟩ fun different => meter_other budgets terms tokens nowUnix different

theorem Seen.settle {id : CapId} {budgets : NodeBudgets} (seen : Seen id budgets) (other : CapId)
    (estimated authoritative nowUnix : Nat) :
    Seen id (budgets.settle other estimated authoritative nowUnix) := by
  cases found : budgets.inner[other]? with
  | none => rwa [settle_unseen found]
  | some entry =>
    exact seen.of_touched ⟨_, settle_entry found estimated authoritative nowUnix⟩
      fun different => settle_other budgets estimated authoritative nowUnix different

/-- An entry is never removed. -/
theorem seen_preserved (id : CapId) : Runs.Preserves step (Seen id) := by
  intro budgets op after seen stepped
  cases op with
  | admitRequest other terms nowUnix =>
    obtain rfl := Option.some.inj stepped
    exact seen.of_touched ⟨_, admit_entry budgets other terms nowUnix⟩
      fun different => admit_other budgets terms nowUnix different
  | meter other terms tokens nowUnix =>
    obtain rfl := Option.some.inj stepped
    exact seen.meter other terms tokens nowUnix
  | settle other estimated authoritative nowUnix =>
    obtain rfl := Option.some.inj stepped
    exact seen.settle other estimated authoritative nowUnix
  | applyShares grants =>
    obtain rfl := Option.some.inj stepped
    exact seen.applyShares grants
  | setPartitioned on =>
    obtain rfl := Option.some.inj stepped
    exact seen
  | spendReport nowUnix =>
    obtain rfl := Option.some.inj stepped
    exact seen.rollAll nowUnix
  | escalating nowUnix =>
    obtain rfl := Option.some.inj stepped
    exact seen.rollAll nowUnix

end NodeBudgets

end SmallGateway
