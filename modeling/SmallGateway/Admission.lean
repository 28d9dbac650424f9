import SmallGateway.NodeBudgets

/-!
Admission against the request's own cap. A request carries the terms its policy composed, but an entry
keeps the cap of the call that created it, a request's or a grant's: `syncTerms` adopts the window and the
alert fraction of later terms and not their cap, and `admit` probes the stored one. `CapsAgree` is the
condition under which the two give the same verdict.
-/

namespace SmallGateway.NodeBudgets

/-- The counter of the entry belongs to the window of the terms that is open now. -/
def countsWindow (entry : Entry) (window : Option Window) (nowUnix : Nat) : Bool :=
  entry.window == window &&
    match window with
    | none => true
    | some w => w.idAt nowUnix == entry.windowId

/-- The spend recorded for a spender in the current window of the terms. -/
def recordedSpend (budgets : NodeBudgets) (id : CapId) (t : CapTerms) (nowUnix : Nat) : Nat :=
  match budgets.inner[id]? with
  | none => 0
  | some entry => if countsWindow entry t.window nowUnix then entry.budget.spent else 0

/-- Admission under the terms denies exactly when the recorded spend has reached their cap. -/
def HonoursOwnCap (budgets : NodeBudgets) (id : CapId) (t : CapTerms) (nowUnix : Nat) : Prop :=
  (budgets.admitRequest id (some t) nowUnix).1.isDeny = true ↔ t.cap ≤ budgets.recordedSpend id t nowUnix

/-- The cap stored in the spender's entry and the cap of the terms are both above the recorded spend or
    both reached by it. A stored cap of `u64Max` is never reached, as the saturating probe cannot pass
    it. -/
def CapsAgree (budgets : NodeBudgets) (id : CapId) (t : CapTerms) (nowUnix : Nat) : Prop :=
  ∀ entry, budgets.inner[id]? = some entry →
    ((∃ stored, entry.budget.cap = some stored ∧ stored ≤ budgets.recordedSpend id t nowUnix ∧
        stored < u64Max) ↔
      t.cap ≤ budgets.recordedSpend id t nowUnix)

private theorem roll_spent (entry : Entry) (nowUnix : Nat) :
    (entry.roll nowUnix).budget.spent =
      if countsWindow entry entry.window nowUnix then entry.budget.spent else 0 := by
  unfold Entry.roll countsWindow
  cases entry.window with
  | none => simp
  | some window =>
    by_cases current : window.idAt nowUnix = entry.windowId
    · simp [current]
    · simp [current]

/-- Syncing to the terms leaves the spend recorded in their current window. -/
theorem syncTerms_spent (entry : Entry) (t : CapTerms) (nowUnix : Nat) :
    (entry.syncTerms (some t) nowUnix).budget.spent =
      if countsWindow entry t.window nowUnix then entry.budget.spent else 0 := by
  by_cases same : entry.window = t.window
  · have rolled : entry.syncTerms (some t) nowUnix =
        { entry with alertFraction := t.alertFraction }.roll nowUnix := by
      simp [Entry.syncTerms, same]
    rw [rolled, roll_spent, ← same]
    rfl
  · simp [Entry.syncTerms, countsWindow, same]

theorem ensure_syncTerms_spent (budgets : NodeBudgets) (id : CapId) (cap : Option Nat) (t : CapTerms)
    (nowUnix : Nat) :
    ((budgets.ensure id cap).syncTerms (some t) nowUnix).budget.spent =
      budgets.recordedSpend id t nowUnix := by
  rw [syncTerms_spent]
  cases seen : budgets.inner[id]? with
  | none => simp [ensure, recordedSpend, seen, freshEntry, LocalBudget.new]
  | some entry => simp [ensure, recordedSpend, seen]

/-- While connected, admission denies exactly when the recorded spend has reached the cap of the entry:
    the stored one, or the request's own when the entry is new. -/
theorem admit_isDeny {budgets : NodeBudgets} (connected : budgets.partitioned = false) (id : CapId)
    (t : CapTerms) (nowUnix : Nat) :
    (budgets.admitRequest id (some t) nowUnix).1.isDeny = true ↔
      ∃ stored, (budgets.ensure id (some t.cap)).budget.cap = some stored ∧
        stored ≤ budgets.recordedSpend id t nowUnix ∧ stored < u64Max := by
  have verdict : (budgets.admitRequest id (some t) nowUnix).1 =
      ((budgets.ensure id (some t.cap)).syncTerms (some t) nowUnix).budget.check 1 := by
    simp [admitRequest, connected]
  rw [verdict, LocalBudget.check_isDeny, Entry.syncTerms_cap, ensure_syncTerms_spent]
  simp only [lt_saturatingAdd_iff, Nat.lt_succ_iff]

private theorem honours_iff_agree {budgets : NodeBudgets} (connected : budgets.partitioned = false)
    (id : CapId) (t : CapTerms) (nowUnix : Nat) :
    HonoursOwnCap budgets id t nowUnix ↔ CapsAgree budgets id t nowUnix := by
  unfold HonoursOwnCap CapsAgree
  rw [admit_isDeny connected]
  cases seen : budgets.inner[id]? with
  | none =>
    -- A new entry stores the request's own cap, and its spend is zero.
    have unspent : budgets.recordedSpend id t nowUnix = 0 := by simp [recordedSpend, seen]
    have bound : 0 < u64Max := by decide
    simp only [ensure_unseen seen, freshEntry, LocalBudget.new, Option.some.injEq, exists_eq_left',
      unspent, reduceCtorEq, false_implies, implies_true, iff_true]
    omega
  | some entry => simp [ensure_seen seen]

/-- While connected, admission honours the request's own cap exactly where the stored cap agrees with it;
    so it does at the end of every run in which every request and grant for the spender carries that cap,
    when it is below `u64Max`. -/
theorem admit_honours_own_cap (budgets : NodeBudgets) (id : CapId) (t : CapTerms) (nowUnix : Nat)
    (connected : budgets.partitioned = false) :
    (HonoursOwnCap budgets id t nowUnix ↔ CapsAgree budgets id t nowUnix) ∧
    ∀ (nodeId : String) (ops : List Op), t.cap < u64Max →
      Runs.Along step (NamesOnly id (some t.cap)) (new nodeId) ops →
        Runs.exec step (new nodeId) ops = some budgets → HonoursOwnCap budgets id t nowUnix := by
  have agree := honours_iff_agree connected id t nowUnix
  refine ⟨agree, ?_⟩
  intro nodeId ops below named executed
  have stores : StoresCap id (some t.cap) budgets :=
    Runs.exec_preserves_along (storesCap_preserved id (some t.cap)) (new_storesCap nodeId id _) named
      executed
  rw [agree]
  intro entry seen
  rw [stores entry seen]
  constructor
  · rintro ⟨stored, found, reached, -⟩
    rw [Option.some.injEq] at found
    omega
  · intro reached
    exact ⟨t.cap, rfl, reached, below⟩

/-- A spender metered once under a cap of 100. -/
def meteredSixty : NodeBudgets :=
  ((new "node").meter ⟨"team", "ml"⟩ (some ⟨100, none, 4 / 5⟩) 60 0).2.2

theorem admit_honours_own_cap_metered :
    HonoursOwnCap meteredSixty ⟨"team", "ml"⟩ ⟨100, none, 4 / 5⟩ 0 ∧
      HonoursOwnCap meteredSixty ⟨"team", "ml"⟩ ⟨80, none, 4 / 5⟩ 0 := by
  constructor
  · refine (admit_honours_own_cap meteredSixty _ _ 0 (by decide)).2 "node"
      [.meter ⟨"team", "ml"⟩ (some ⟨100, none, 4 / 5⟩) 60 0] (by decide) ?_ rfl
    refine ⟨?_, fun _ _ => trivial⟩
    simp [NamesOnly, Op.capsNamed]
  · refine (admit_honours_own_cap meteredSixty _ _ 0 (by decide)).1.mpr ?_
    intro entry seen
    have stored : entry.budget.cap = some 100 := by
      have found : meteredSixty.inner[(⟨"team", "ml"⟩ : CapId)]?.map (·.budget.cap) = some (some 100) := by
        decide
      simpa [seen] using found
    have spend : meteredSixty.recordedSpend ⟨"team", "ml"⟩ ⟨80, none, 4 / 5⟩ 0 = 60 := by
      decide
    rw [stored, spend]
    simp

/-- A spender metered to 60 under a cap of 100 is still admitted by a request whose policy has since
    lowered the cap to 50. -/
theorem admit_misses_lowered_cap :
    ¬ ∀ (nodeId : String) (ops : List Op) (budgets : NodeBudgets),
      Runs.exec step (new nodeId) ops = some budgets → budgets.partitioned = false →
        ∀ (id : CapId) (t : CapTerms) (nowUnix : Nat), HonoursOwnCap budgets id t nowUnix := by
  intro claimed
  have denied := (claimed "node" [.meter ⟨"team", "ml"⟩ (some ⟨100, none, 4 / 5⟩) 60 0] meteredSixty rfl
    (by decide) ⟨"team", "ml"⟩ ⟨50, none, 4 / 5⟩ 0).mpr (by decide)
  have admitted : (meteredSixty.admitRequest ⟨"team", "ml"⟩ (some ⟨50, none, 4 / 5⟩) 0).1.isDeny = false := by
    decide +kernel
  rw [admitted] at denied
  exact Bool.false_ne_true denied

end SmallGateway.NodeBudgets
