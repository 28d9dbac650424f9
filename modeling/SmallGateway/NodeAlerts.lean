import SmallGateway.NodeBudgets

/-!
The alerts a node raises about one spender in one billing window (`gatewayd/src/budget.rs`). A metering call raises an
alert when the spend it leaves is at the threshold and none was raised before; a settlement raises the spend too, and
asks for no alert. So the alerts raised are those of the thresholds the spend has reached exactly as long as no
settlement takes the spend to a threshold first (`alerts_exact_iff`).
-/

namespace SmallGateway

/-! ### Entries in step with a window -/

/-- The two times are in one window of the terms. -/
def CapTerms.SameWindow (t : CapTerms) (first second : Nat) : Prop :=
  t.window.map (·.idAt first) = t.window.map (·.idAt second)

instance (t : CapTerms) (first second : Nat) : Decidable (t.SameWindow first second) :=
  inferInstanceAs (Decidable (_ = _))

namespace Entry

/-- The entry counts in the window of the terms that is open at the time. -/
structure InStep (entry : Entry) (t : CapTerms) (nowUnix : Nat) : Prop where
  window : entry.window = t.window
  alertFraction : entry.alertFraction = t.alertFraction
  windowId : ∀ window, t.window = some window → entry.windowId = window.idAt nowUnix

variable {entry : Entry} {t : CapTerms} {nowUnix other : Nat}

theorem roll_alertFraction (entry : Entry) (fraction : ℚ) (nowUnix : Nat) :
    Entry.roll { entry with alertFraction := fraction } nowUnix =
      { entry.roll nowUnix with alertFraction := fraction } := by
  obtain ⟨budget, latch, window, windowId, own⟩ := entry
  cases window with
  | none => rfl
  | some kind =>
    dsimp only [roll]
    split <;> rfl

theorem syncTerms_kept (entry : Entry) (kept : entry.window = t.window) :
    entry.syncTerms (some t) nowUnix = { entry.roll nowUnix with alertFraction := t.alertFraction } := by
  rw [← roll_alertFraction]
  exact if_neg (not_not.mpr kept)

theorem syncTerms_inStep (entry : Entry) (t : CapTerms) (nowUnix : Nat) :
    (entry.syncTerms (some t) nowUnix).InStep t nowUnix := by
  by_cases kept : entry.window = t.window
  · rw [syncTerms_kept entry kept]
    refine ⟨(roll_window entry nowUnix).trans kept, rfl, fun kind windowed => ?_⟩
    have known : entry.window = some kind := kept.trans windowed
    by_cases same : kind.idAt nowUnix = entry.windowId
    · simp [roll, known, same]
    · simp [roll, known, same]
  · have synced : entry.syncTerms (some t) nowUnix =
        ⟨entry.budget.resetWindowSpend, .new, t.window, (t.window.map (·.idAt nowUnix)).getD 0, t.alertFraction⟩ :=
      if_pos kept
    rw [synced]
    exact ⟨rfl, rfl, fun kind windowed => by simp [windowed]⟩

theorem InStep.roll (inStep : entry.InStep t nowUnix) : entry.roll nowUnix = entry := by
  cases windowed : t.window with
  | none => exact roll_lifetime (inStep.window.trans windowed) nowUnix
  | some kind => simp [Entry.roll, inStep.window.trans windowed, inStep.windowId kind windowed]

theorem InStep.syncTerms (inStep : entry.InStep t nowUnix) : entry.syncTerms (some t) nowUnix = entry := by
  rw [syncTerms_kept entry inStep.window, inStep.roll, ← inStep.alertFraction]

theorem roll_congr (window : entry.window = t.window) (same : t.SameWindow nowUnix other) :
    entry.roll nowUnix = entry.roll other := by
  cases windowed : t.window with
  | none => simp [roll, window, windowed]
  | some kind =>
    have ids : kind.idAt nowUnix = kind.idAt other := by simpa [CapTerms.SameWindow, windowed] using same
    simp [roll, window, windowed, ids]

/-- Of the time of a call, only the window that it is in matters. -/
theorem syncTerms_congr (entry : Entry) (same : t.SameWindow nowUnix other) :
    entry.syncTerms (some t) nowUnix = entry.syncTerms (some t) other := by
  unfold syncTerms
  dsimp only
  rw [show t.window.map (·.idAt nowUnix) = t.window.map (·.idAt other) from same]
  split
  · rfl
  next kept => exact roll_congr (not_not.mp kept) same

/-- An entry of another kind of window starts over. -/
theorem syncTerms_stale (entry : Entry) (stale : entry.window ≠ t.window) (nowUnix : Nat) :
    (entry.syncTerms (some t) nowUnix).latch = .new ∧ (entry.syncTerms (some t) nowUnix).budget.spent = 0 := by
  simp [syncTerms, stale]

theorem roll_roll (entry : Entry) (nowUnix : Nat) : (entry.roll nowUnix).roll nowUnix = entry.roll nowUnix := by
  cases windowed : entry.window with
  | none => simp [roll, windowed]
  | some kind =>
    by_cases same : kind.idAt nowUnix = entry.windowId
    · simp [roll, windowed, same]
    · simp [roll, windowed, same]

theorem syncTerms_roll (kept : entry.window = t.window) :
    (entry.roll nowUnix).syncTerms (some t) nowUnix = entry.syncTerms (some t) nowUnix := by
  rw [syncTerms_kept entry kept, syncTerms_kept _ ((roll_window entry nowUnix).trans kept), roll_roll]

/-- What is put on the counter of a rolled entry is in the window it was rolled to. -/
theorem roll_budget (entry : Entry) (budget : LocalBudget) (nowUnix : Nat) :
    Entry.roll { entry.roll nowUnix with budget := budget } nowUnix = { entry.roll nowUnix with budget := budget } := by
  cases windowed : entry.window with
  | none => simp [roll, windowed]
  | some kind =>
    by_cases same : kind.idAt nowUnix = entry.windowId
    · simp [roll, windowed, same]
    · simp [roll, windowed, same]

theorem syncTerms_budget (entry : Entry) (kept : entry.window = t.window) (budget : LocalBudget) :
    Entry.syncTerms { entry.roll nowUnix with budget := budget } (some t) nowUnix =
      { entry.syncTerms (some t) nowUnix with budget := budget } := by
  rw [syncTerms_kept { entry.roll nowUnix with budget := budget } ((roll_window entry nowUnix).trans kept), roll_budget,
    syncTerms_kept entry kept]

/-- A roll leaves what a call with the terms will find. -/
theorem syncTerms_rolled (entry : Entry) (same : t.SameWindow nowUnix other) :
    ((entry.roll other).syncTerms (some t) nowUnix).latch = (entry.syncTerms (some t) nowUnix).latch ∧
      ((entry.roll other).syncTerms (some t) nowUnix).budget.spent =
        (entry.syncTerms (some t) nowUnix).budget.spent := by
  by_cases kept : entry.window = t.window
  · rw [← roll_congr kept same, syncTerms_roll kept]
    exact ⟨rfl, rfl⟩
  · have rolled : (entry.roll other).window ≠ t.window := by rwa [roll_window]
    obtain ⟨latch, spent⟩ := syncTerms_stale entry kept nowUnix
    obtain ⟨latch', spent'⟩ := syncTerms_stale _ rolled nowUnix
    exact ⟨latch'.trans latch.symm, spent'.trans spent.symm⟩

theorem syncTerms_setShare (entry : Entry) (t : CapTerms) (nowUnix share : Nat) :
    (Entry.syncTerms { entry with budget := entry.budget.setShare share } (some t) nowUnix).latch =
        (entry.syncTerms (some t) nowUnix).latch ∧
      (Entry.syncTerms { entry with budget := entry.budget.setShare share } (some t) nowUnix).budget.spent =
        (entry.syncTerms (some t) nowUnix).budget.spent := by
  by_cases kept : entry.window = t.window
  · rw [syncTerms_kept entry kept, syncTerms_kept { entry with budget := entry.budget.setShare share } kept]
    cases windowed : entry.window with
    | none => simp [roll, windowed]
    | some kind =>
      by_cases same : kind.idAt nowUnix = entry.windowId
      · simp [roll, windowed, same]
      · simp [roll, windowed, same]
  · simp [syncTerms, kept]

end Entry

/-! ### Thresholds -/

/-- The two thresholds of a cap that raise an alert. -/
inductive Level where
  | soft
  | hard
  deriving DecidableEq

namespace Level

instance {p : Level → Prop} [DecidablePred p] : Decidable (∀ level, p level) :=
  decidable_of_iff (p .soft ∧ p .hard)
    ⟨fun both level => by cases level; exacts [both.1, both.2], fun all => ⟨all .soft, all .hard⟩⟩

/-- The spend is at the threshold of the terms. -/
def reached (t : CapTerms) : Level → Nat → Prop
  | .soft, spent => t.alertFraction ≤ (spent : ℚ) / t.cap
  | .hard, spent => t.cap ≤ spent

instance (t : CapTerms) : ∀ level spent, Decidable (reached t level spent)
  | .soft, spent => inferInstanceAs (Decidable (t.alertFraction ≤ (spent : ℚ) / t.cap))
  | .hard, spent => inferInstanceAs (Decidable (t.cap ≤ spent))

def fired : Level → AlertLatch → Bool
  | .soft, latch => latch.softFired
  | .hard, latch => latch.hardFired

def raises : Level → AlertKind → Bool
  | .soft, .softThreshold _ => true
  | .hard, .hardCap => true
  | _, _ => false

/-- The alerts about the threshold of a spender. -/
def count (level : Level) (id : CapId) (alerts : List Alert) : Nat :=
  alerts.countP fun alert => alert.id = id && level.raises alert.kind

theorem reached_mono {t : CapTerms} {level : Level} {less more : Nat} (le : less ≤ more)
    (at_less : level.reached t less) : level.reached t more := by
  cases level with
  | soft =>
    have cast : (less : ℚ) ≤ more := by exact_mod_cast le
    exact at_less.trans (div_le_div_of_nonneg_right cast (Nat.cast_nonneg t.cap))
  | hard => exact Nat.le_trans at_less le

theorem count_append (level : Level) (id : CapId) (first second : List Alert) :
    level.count id (first ++ second) = level.count id first + level.count id second :=
  List.countP_append

theorem count_others {level : Level} {id : CapId} {alerts : List Alert} (others : ∀ alert ∈ alerts, alert.id ≠ id) :
    level.count id alerts = 0 := by
  refine List.countP_eq_zero.mpr fun alert raised => ?_
  simp [others alert raised]

theorem count_newly (level : Level) (alert : Alert) (newly : Bool) :
    level.count alert.id (if newly then [alert] else []) =
      if newly = true ∧ level.raises alert.kind = true then 1 else 0 := by
  cases newly with
  | false => rfl
  | true => simp [count, List.countP_cons]

section

variable {latch : AlertLatch} {id : CapId} {t : CapTerms}

/-- What a spend newly crosses is a threshold that it is at, and that has not raised an alert. -/
theorem cross_count (capped : 0 < t.cap) (spent : Nat) (node : String) (level : Level) :
    level.count id (latch.cross id t.cap spent node t.alertFraction).1 =
      if level.fired latch = false ∧ level.reached t spent then 1 else 0 := by
  have soft := count_newly level ⟨.softThreshold t.alertFraction, id, t.cap, spent, node⟩
    (!latch.softFired && decide ((spent : ℚ) / t.cap ≥ t.alertFraction))
  have hard := count_newly level ⟨.hardCap, id, t.cap, spent, node⟩
    (!latch.hardFired && decide (spent ≥ t.cap))
  rw [AlertLatch.cross, if_neg (Nat.pos_iff_ne_zero.mp capped)]
  dsimp only at soft hard ⊢
  rw [count_append, soft, hard]
  cases level with
  | soft =>
    simp only [raises, Bool.and_eq_true, Bool.not_eq_true', decide_eq_true_eq, and_true, Bool.false_eq_true, and_false,
      if_false, Nat.add_zero]
    exact if_congr Iff.rfl rfl rfl
  | hard =>
    simp only [raises, Bool.and_eq_true, Bool.not_eq_true', decide_eq_true_eq, and_true, Bool.false_eq_true, and_false,
      if_false, Nat.zero_add]
    exact if_congr Iff.rfl rfl rfl

theorem cross_fired (latch : AlertLatch) (id : CapId) (capped : 0 < t.cap) (spent : Nat) (node : String)
    (level : Level) :
    level.fired (latch.cross id t.cap spent node t.alertFraction).2 = true ↔
      level.fired latch = true ∨ level.reached t spent := by
  rw [AlertLatch.cross, if_neg (Nat.pos_iff_ne_zero.mp capped)]
  cases level with
  | soft => cases unfired : latch.softFired <;> simp [fired, reached, unfired]
  | hard => cases unfired : latch.hardFired <;> simp [fired, reached, unfired]

/-- The alerts raised before and now are those that the latch remembers. -/
theorem cross_accounts (capped : 0 < t.cap) (spent : Nat) (node : String) (level : Level) :
    (if level.fired latch = true then 1 else 0) +
        level.count id (latch.cross id t.cap spent node t.alertFraction).1 =
      if level.fired (latch.cross id t.cap spent node t.alertFraction).2 = true then 1 else 0 := by
  rw [cross_count capped]
  have fires := cross_fired latch id capped spent node level
  by_cases fired : level.fired latch = true
  · simp [fired, fires]
  · by_cases reached : level.reached t spent
    · simp [fired, fires, reached]
    · simp [fired, fires, reached]

theorem cross_id {cap spent : Nat} {node : String} {fraction : ℚ} :
    ∀ alert ∈ (latch.cross id cap spent node fraction).1, alert.id = id := by
  intro alert raised
  rw [AlertLatch.cross] at raised
  split at raised
  · cases raised
  · simp only [List.mem_append, List.mem_ite_nil_right, List.mem_singleton] at raised
    rcases raised with ⟨-, rfl⟩ | ⟨-, rfl⟩ <;> rfl

end

end Level

namespace NodeBudgets

/-! ### One call in the window -/

/-- The entry of the spender as a call with the terms finds it. -/
def found (budgets : NodeBudgets) (id : CapId) (t : CapTerms) (nowUnix : Nat) : Entry :=
  (budgets.ensure id (some t.cap)).syncTerms (some t) nowUnix

/-- The alerts that a call raises. -/
def raised (budgets : NodeBudgets) : Op → List Alert
  | .meter id terms tokens nowUnix => (budgets.meter id terms tokens nowUnix).2.1
  | _ => []

/-- The call is made in the window, and names the spender with the terms if it names it. -/
def Op.InWindow (id : CapId) (t : CapTerms) (opened : Nat) : Op → Prop
  | .admitRequest other terms nowUnix => other = id → terms = some t ∧ t.SameWindow opened nowUnix
  | .meter other terms _ nowUnix => other = id → terms = some t ∧ t.SameWindow opened nowUnix
  | .settle other _ _ nowUnix => other = id → t.SameWindow opened nowUnix
  | .spendReport nowUnix => t.SameWindow opened nowUnix
  | .escalating nowUnix => t.SameWindow opened nowUnix
  | .applyShares _ => True
  | .setPartitioned _ => True

instance (id : CapId) (t : CapTerms) (opened : Nat) : ∀ op, Decidable (Op.InWindow id t opened op)
  | .admitRequest other terms nowUnix =>
    inferInstanceAs (Decidable (other = id → terms = some t ∧ t.SameWindow opened nowUnix))
  | .meter other terms _ nowUnix =>
    inferInstanceAs (Decidable (other = id → terms = some t ∧ t.SameWindow opened nowUnix))
  | .settle other _ _ nowUnix => inferInstanceAs (Decidable (other = id → t.SameWindow opened nowUnix))
  | .spendReport nowUnix => inferInstanceAs (Decidable (t.SameWindow opened nowUnix))
  | .escalating nowUnix => inferInstanceAs (Decidable (t.SameWindow opened nowUnix))
  | .applyShares _ => isTrue trivial
  | .setPartitioned _ => isTrue trivial

/-- What a call does to the entry of the spender: it meters the spender, settles it in the window, or leaves its spend
    and its latch. -/
inductive Moved (id : CapId) (t : CapTerms) (opened : Nat) (before after : NodeBudgets) : Op → Prop
  | metered (tokens nowUnix : Nat)
      (counted : after.found id t opened =
        { before.found id t opened with
          budget := (before.found id t opened).budget.commit tokens
          latch := ((before.found id t opened).latch.cross id t.cap
            ((before.found id t opened).budget.commit tokens).spent before.nodeId t.alertFraction).2 })
      (alerts : before.raised (.meter id (some t) tokens nowUnix) =
        ((before.found id t opened).latch.cross id t.cap
          ((before.found id t opened).budget.commit tokens).spent before.nodeId t.alertFraction).1) :
      Moved id t opened before after (.meter id (some t) tokens nowUnix)
  | settled (estimated authoritative nowUnix : Nat) (entry : Entry) (known : before.inner[id]? = some entry)
      (window : entry.window = t.window)
      (counted : after.found id t opened =
        { before.found id t opened with
          budget := (before.found id t opened).budget.reconcile estimated authoritative }) :
      Moved id t opened before after (.settle id estimated authoritative nowUnix)
  | kept (op : Op) (latch : (after.found id t opened).latch = (before.found id t opened).latch)
      (spent : (after.found id t opened).budget.spent = (before.found id t opened).budget.spent)
      (others : ∀ alert ∈ before.raised op, alert.id ≠ id)
      (unsettled : ∀ estimated authoritative nowUnix entry, op = .settle id estimated authoritative nowUnix →
        before.inner[id]? = some entry → entry.window ≠ t.window) :
      Moved id t opened before after op

section

variable {id : CapId} {t : CapTerms} {opened : Nat} {before after : NodeBudgets}

theorem found_entry {entry : Entry} (known : before.inner[id]? = some entry) :
    before.found id t opened = entry.syncTerms (some t) opened := by
  rw [found, ensure_seen known]

theorem found_congr (same : after.inner[id]? = before.inner[id]?) :
    after.found id t opened = before.found id t opened := by
  rw [found, found, ensure, ensure, same]

/-- A fresh entry has no spend and has raised no alert, whatever its cap. -/
theorem syncTerms_freshEntry (id : CapId) (t : CapTerms) (opened : Nat) (cap : Option Nat) :
    ((freshEntry id cap).syncTerms (some t) opened).latch = .new ∧
      ((freshEntry id cap).syncTerms (some t) opened).budget.spent = 0 := by
  by_cases lifetime : t.window = none
  · simp [Entry.syncTerms, freshEntry, lifetime, Entry.roll, LocalBudget.new]
  · exact Entry.syncTerms_stale (freshEntry id cap) (fun same => lifetime same.symm) opened

theorem admit_found (before : NodeBudgets) (id : CapId) {terms : Option CapTerms} {nowUnix : Nat}
    (same : t.SameWindow opened nowUnix) (named : terms = some t) :
    (before.admitRequest id terms nowUnix).2.found id t opened = before.found id t opened := by
  subst named
  rw [found_entry (admit_entry before id (some t) nowUnix), found, Option.map_some,
    ← Entry.syncTerms_congr (before.ensure id (some t.cap)) same]
  exact (Entry.syncTerms_inStep (before.ensure id (some t.cap)) t opened).syncTerms

theorem meter_moved {tokens nowUnix : Nat} (same : t.SameWindow opened nowUnix) :
    Moved id t opened before (before.meter id (some t) tokens nowUnix).2.2 (.meter id (some t) tokens nowUnix) := by
  have inStep := Entry.syncTerms_inStep (before.ensure id (some t.cap)) t opened
  have synced : (before.ensure id (some t.cap)).syncTerms (some t) nowUnix = before.found id t opened :=
    (Entry.syncTerms_congr (before.ensure id (some t.cap)) same).symm
  have stored : (before.meter id (some t) tokens nowUnix).2.2.inner[id]? = some
      { before.found id t opened with
        budget := (before.found id t opened).budget.commit tokens
        latch := ((before.found id t opened).latch.cross id t.cap
          ((before.found id t opened).budget.commit tokens).spent before.nodeId
          (before.found id t opened).alertFraction).2 } := by
    rw [← synced]
    exact put_entry before id _
  have fraction : (before.found id t opened).alertFraction = t.alertFraction := inStep.alertFraction
  rw [fraction] at stored
  refine .metered tokens nowUnix ?_ ?_
  · rw [found_entry stored]
    exact Entry.InStep.syncTerms ⟨inStep.window, inStep.alertFraction, inStep.windowId⟩
  · rw [← fraction, ← synced]
    rfl

theorem settle_moved {estimated authoritative nowUnix : Nat} (same : t.SameWindow opened nowUnix) :
    Moved id t opened before (before.settle id estimated authoritative nowUnix)
      (.settle id estimated authoritative nowUnix) := by
  cases known : before.inner[id]? with
  | none =>
    rw [settle_unseen known]
    exact .kept _ rfl rfl (fun alert raised => nomatch raised) (fun _ _ _ entry _ stored => by simp [known] at stored)
  | some entry =>
    have stored := settle_entry known estimated authoritative nowUnix
    by_cases window : entry.window = t.window
    · refine .settled estimated authoritative nowUnix entry known window ?_
      have budget : (entry.syncTerms (some t) opened).budget = (entry.roll opened).budget := by
        rw [Entry.syncTerms_kept entry window]
      rw [found_entry stored, found_entry known, ← Entry.roll_congr window same, Entry.syncTerms_budget entry window,
        budget]
    · have rolled : (entry.roll nowUnix).window ≠ t.window := by rwa [Entry.roll_window]
      obtain ⟨latch, spent⟩ := Entry.syncTerms_stale entry window opened
      obtain ⟨latch', spent'⟩ := Entry.syncTerms_stale
        { entry.roll nowUnix with budget := (entry.roll nowUnix).budget.reconcile estimated authoritative } rolled
        opened
      refine .kept _ ?_ ?_ (fun alert raised => nomatch raised) ?_
      · rw [found_entry stored, found_entry known, latch, latch']
      · rw [found_entry stored, found_entry known, spent, spent']
      · intro _ _ _ other _ stored
        rw [known] at stored
        exact Option.some.inj stored ▸ window

theorem applyShare_found (before : NodeBudgets) (id : CapId) (t : CapTerms) (opened : Nat)
    (grant : CapId × Nat × Nat) :
    ((before.applyShare grant).found id t opened).latch = (before.found id t opened).latch ∧
      ((before.applyShare grant).found id t opened).budget.spent = (before.found id t opened).budget.spent := by
  by_cases same : grant.1 = id
  · subst same
    rw [found_entry (applyShare_entry before grant.1 grant.2.1 grant.2.2)]
    obtain ⟨latch, spent⟩ := Entry.syncTerms_setShare (before.ensure grant.1 (some grant.2.1)) t opened grant.2.2
    rw [latch, spent]
    cases known : before.inner[grant.1]? with
    | none =>
      obtain ⟨fresh, zero⟩ := syncTerms_freshEntry grant.1 t opened (some grant.2.1)
      obtain ⟨fresh', zero'⟩ := syncTerms_freshEntry grant.1 t opened (some t.cap)
      rw [found, ensure_unseen known, ensure_unseen known]
      exact ⟨fresh.trans fresh'.symm, zero.trans zero'.symm⟩
    | some entry =>
      rw [found_entry known, ensure_seen known]
      exact ⟨rfl, rfl⟩
  · rw [found_congr (applyShare_other before grant (Ne.symm same))]
    exact ⟨rfl, rfl⟩

theorem applyShares_found (before : NodeBudgets) (id : CapId) (t : CapTerms) (opened : Nat)
    (grants : List (CapId × Nat × Nat)) :
    ((before.applyShares grants).found id t opened).latch = (before.found id t opened).latch ∧
      ((before.applyShares grants).found id t opened).budget.spent = (before.found id t opened).budget.spent := by
  rw [applyShares_eq]
  induction grants generalizing before with
  | nil => exact ⟨rfl, rfl⟩
  | cons grant grants ih =>
    obtain ⟨latch, spent⟩ := applyShare_found before id t opened grant
    obtain ⟨latch', spent'⟩ := ih (before.applyShare grant)
    exact ⟨latch'.trans latch, spent'.trans spent⟩

theorem rollAll_found (before : NodeBudgets) (id : CapId) {nowUnix : Nat} (same : t.SameWindow opened nowUnix) :
    ((before.rollAll nowUnix).found id t opened).latch = (before.found id t opened).latch ∧
      ((before.rollAll nowUnix).found id t opened).budget.spent = (before.found id t opened).budget.spent := by
  have rolled := rollAll_entry before id nowUnix
  cases known : before.inner[id]? with
  | none =>
    rw [known] at rolled
    rw [found_congr (rolled.trans known.symm)]
    exact ⟨rfl, rfl⟩
  | some entry =>
    rw [known] at rolled
    rw [found_entry rolled, found_entry known]
    exact Entry.syncTerms_rolled entry same

/-- A call that does not name the spender leaves it. -/
theorem moved_other {op : Op} (same : after.inner[id]? = before.inner[id]?)
    (others : ∀ alert ∈ before.raised op, alert.id ≠ id)
    (unsettled : ∀ estimated authoritative nowUnix, op ≠ .settle id estimated authoritative nowUnix) :
    Moved id t opened before after op := by
  have kept : after.found id t opened = before.found id t opened := found_congr same
  refine .kept op (by rw [kept]) (by rw [kept]) others ?_
  intro estimated authoritative nowUnix _ settles _
  exact absurd settles (unsettled estimated authoritative nowUnix)

theorem step_moved {op : Op} (inWindow : op.InWindow id t opened) (stepped : before.step op = some after) :
    Moved id t opened before after op := by
  cases op with
  | admitRequest other terms nowUnix =>
    obtain rfl := Option.some.inj stepped
    by_cases same : other = id
    · subst same
      obtain ⟨named, window⟩ := inWindow rfl
      have kept := admit_found before other window named
      refine .kept _ (by rw [kept]) (by rw [kept]) (fun alert raised => nomatch raised) ?_
      exact fun _ _ _ _ settles => nomatch settles
    · refine moved_other (admit_other before terms nowUnix (Ne.symm same)) (fun alert raised => nomatch raised) ?_
      exact fun _ _ _ settles => nomatch settles
  | meter other terms tokens nowUnix =>
    obtain rfl := Option.some.inj stepped
    by_cases same : other = id
    · subst same
      obtain ⟨rfl, window⟩ := inWindow rfl
      exact meter_moved window
    · refine moved_other (meter_other before terms tokens nowUnix (Ne.symm same)) ?_
        fun _ _ _ settles => nomatch settles
      intro alert raised
      cases terms with
      | none => cases raised
      | some terms => exact fun named => same ((Level.cross_id alert raised).symm.trans named)
  | settle other estimated authoritative nowUnix =>
    obtain rfl := Option.some.inj stepped
    by_cases same : other = id
    · subst same
      exact settle_moved (inWindow rfl)
    · refine moved_other (settle_other before estimated authoritative nowUnix (Ne.symm same))
        (fun alert raised => nomatch raised) ?_
      intro _ _ _ settles
      exact same (Op.settle.inj settles).1
  | applyShares grants =>
    obtain rfl := Option.some.inj stepped
    obtain ⟨latch, spent⟩ := applyShares_found before id t opened grants
    exact .kept _ latch spent (fun alert raised => nomatch raised) fun _ _ _ _ settles => nomatch settles
  | setPartitioned on =>
    obtain rfl := Option.some.inj stepped
    exact moved_other rfl (fun alert raised => nomatch raised) fun _ _ _ settles => nomatch settles
  | spendReport nowUnix =>
    obtain rfl := Option.some.inj stepped
    obtain ⟨latch, spent⟩ := rollAll_found before id inWindow
    exact .kept _ latch spent (fun alert raised => nomatch raised) fun _ _ _ _ settles => nomatch settles
  | escalating nowUnix =>
    obtain rfl := Option.some.inj stepped
    obtain ⟨latch, spent⟩ := rollAll_found before id inWindow
    exact .kept _ latch spent (fun alert raised => nomatch raised) fun _ _ _ _ settles => nomatch settles

end

/-! ### The window -/

/-- The ledger in a window, with the alerts raised in it and the spends that its calls have left. -/
structure Watched where
  budgets : NodeBudgets
  alerts : List Alert
  spends : List Nat

/-- A call in the window. -/
def Watched.step (id : CapId) (t : CapTerms) (opened : Nat) (watched : Watched) (op : Op) : Option Watched :=
  if op.InWindow id t opened then
    (watched.budgets.step op).map fun after =>
      ⟨after, watched.alerts ++ watched.budgets.raised op,
        watched.spends ++ [(after.found id t opened).budget.spent]⟩
  else none

/-- The ledger as the window opens. -/
def watch (budgets : NodeBudgets) (id : CapId) (t : CapTerms) (opened : Nat) : Watched :=
  ⟨budgets, [], [(budgets.found id t opened).budget.spent]⟩

/-- The first call of the window finds no spend and no alert raised. -/
def Opens (budgets : NodeBudgets) (id : CapId) (t : CapTerms) (opened : Nat) : Prop :=
  (budgets.found id t opened).budget.spent = 0 ∧ (budgets.found id t opened).latch = .new

instance (budgets : NodeBudgets) (id : CapId) (t : CapTerms) (opened : Nat) :
    Decidable (Opens budgets id t opened) :=
  inferInstanceAs (Decidable (_ ∧ _))

/-- Each threshold has raised one alert if the spend has reached it, and none otherwise. -/
def AlertsExact (id : CapId) (t : CapTerms) (watched : Watched) : Prop :=
  ∀ level : Level, level.count id watched.alerts = if ∃ spent ∈ watched.spends, level.reached t spent then 1 else 0

/-- A settlement of the spender takes its spend to a threshold only after the alert of that threshold. -/
def SettlesAlerted (id : CapId) (t : CapTerms) (opened : Nat) (watched : Watched) : Op → Prop
  | .settle other estimated authoritative _ =>
    other = id → ∀ entry ∈ watched.budgets.inner[id]?, entry.window = t.window → ∀ level : Level,
      level.reached t (saturatingAdd (watched.budgets.found id t opened).budget.spent (authoritative - estimated)) →
        level.fired (watched.budgets.found id t opened).latch = true
  | _ => True

instance (id : CapId) (t : CapTerms) (opened : Nat) (watched : Watched) :
    ∀ op, Decidable (SettlesAlerted id t opened watched op)
  | .settle other estimated authoritative _ =>
    inferInstanceAs (Decidable (other = id → ∀ entry ∈ watched.budgets.inner[id]?, entry.window = t.window →
      ∀ level : Level,
        level.reached t (saturatingAdd (watched.budgets.found id t opened).budget.spent (authoritative - estimated)) →
          level.fired (watched.budgets.found id t opened).latch = true))
  | .admitRequest .. => isTrue trivial
  | .meter .. => isTrue trivial
  | .applyShares _ => isTrue trivial
  | .setPartitioned _ => isTrue trivial
  | .spendReport _ => isTrue trivial
  | .escalating _ => isTrue trivial

/-- The latch says which thresholds have raised their one alert, and the spend is among those seen. -/
structure Latches (id : CapId) (t : CapTerms) (opened : Nat) (watched : Watched) : Prop where
  counts : ∀ level : Level, level.count id watched.alerts =
    if level.fired (watched.budgets.found id t opened).latch then 1 else 0
  spent : (watched.budgets.found id t opened).budget.spent ∈ watched.spends

section

variable {id : CapId} {t : CapTerms} {opened : Nat} {watched next : Watched} {op : Op}

/-- The alerts are exact when the latch has fired for the thresholds that have been reached. -/
theorem Latches.exact_iff (latches : Latches id t opened watched) :
    AlertsExact id t watched ↔ ∀ level : Level,
      level.fired (watched.budgets.found id t opened).latch = true ↔
        ∃ spent ∈ watched.spends, level.reached t spent := by
  refine forall_congr' fun level => ?_
  rw [latches.counts level]
  by_cases fired : level.fired (watched.budgets.found id t opened).latch = true
  · by_cases reached : ∃ spent ∈ watched.spends, level.reached t spent
    · simp [fired, reached]
    · simp [fired, reached]
  · by_cases reached : ∃ spent ∈ watched.spends, level.reached t spent
    · simp [fired, reached]
    · simp [fired, reached]

theorem watched_step (stepped : Watched.step id t opened watched op = some next) :
    Moved id t opened watched.budgets next.budgets op ∧ next.alerts = watched.alerts ++ watched.budgets.raised op ∧
      next.spends = watched.spends ++ [(next.budgets.found id t opened).budget.spent] := by
  unfold Watched.step at stepped
  split at stepped
  next inWindow =>
    obtain ⟨after, moved, rfl⟩ := Option.map_eq_some_iff.mp stepped
    exact ⟨step_moved inWindow moved, rfl, rfl⟩
  next => cases stepped

theorem opens_latches {budgets : NodeBudgets} (opens : Opens budgets id t opened) :
    Latches id t opened (watch budgets id t opened) := by
  refine ⟨fun level => ?_, List.mem_singleton_self _⟩
  show level.count id [] = if level.fired (budgets.found id t opened).latch then 1 else 0
  rw [opens.2]
  cases level <;> rfl

/-- The spend that a settlement leaves is at most the counted one, and is it when the count is no lower. -/
theorem reconcile_reached (budget : LocalBudget) (estimated authoritative : Nat) (level : Level) :
    level.reached t (saturatingAdd budget.spent (authoritative - estimated)) →
      level.reached t (budget.reconcile estimated authoritative).spent ∨ level.reached t budget.spent := by
  intro reached
  rw [LocalBudget.reconcile_spent]
  by_cases more : authoritative ≥ estimated
  · rw [if_pos more]
    exact .inl reached
  · have none : authoritative - estimated = 0 := by omega
    rw [none] at reached
    exact .inr (Level.reached_mono (saturatingAdd_le budget.spent 0) reached)

theorem reached_reconcile (budget : LocalBudget) (estimated authoritative : Nat) (level : Level)
    (reached : level.reached t (budget.reconcile estimated authoritative).spent) :
    level.reached t (saturatingAdd budget.spent (authoritative - estimated)) ∨ level.reached t budget.spent := by
  rw [LocalBudget.reconcile_spent] at reached
  split at reached
  · exact .inl reached
  · exact .inr (Level.reached_mono (Nat.sub_le _ _) reached)

theorem latches_step (capped : 0 < t.cap) (latches : Latches id t opened watched)
    (stepped : Watched.step id t opened watched op = some next) : Latches id t opened next := by
  obtain ⟨moved, alerts, spends⟩ := watched_step stepped
  refine ⟨fun level => ?_, by rw [spends]; exact List.mem_append_right _ List.mem_cons_self⟩
  rw [alerts, Level.count_append, latches.counts level]
  cases moved with
  | metered tokens nowUnix counted raised =>
    rw [raised, counted]
    exact Level.cross_accounts capped _ watched.budgets.nodeId level
  | settled estimated authoritative nowUnix entry known window counted =>
    rw [counted]
    rfl
  | kept _ latch spent others unsettled => rw [Level.count_others others, latch, Nat.add_zero]

/-- A call keeps the alerts exact when it takes the spend to no threshold without its alert. -/
theorem exact_step (capped : 0 < t.cap) (latches : Latches id t opened watched) (exact : AlertsExact id t watched)
    (stepped : Watched.step id t opened watched op = some next) :
    AlertsExact id t next ↔ SettlesAlerted id t opened watched op := by
  have latched := latches_step capped latches stepped
  rw [latched.exact_iff]
  rw [latches.exact_iff] at exact
  obtain ⟨moved, -, spends⟩ := watched_step stepped
  have everReached : ∀ level : Level, (∃ spent ∈ next.spends, level.reached t spent) ↔
      level.fired (watched.budgets.found id t opened).latch = true ∨
        level.reached t (next.budgets.found id t opened).budget.spent := by
    intro level
    rw [spends, exact level]
    simp [or_and_right, exists_or]
  simp only [everReached]
  cases moved with
  | metered tokens nowUnix counted raised =>
    refine iff_of_true (fun level => ?_) trivial
    rw [counted]
    exact Level.cross_fired _ id capped _ watched.budgets.nodeId level
  | settled estimated authoritative nowUnix entry known window counted =>
    rw [counted]
    have current : ∀ level : Level, level.reached t (watched.budgets.found id t opened).budget.spent →
        level.fired (watched.budgets.found id t opened).latch = true :=
      fun level reached => (exact level).mpr ⟨_, latches.spent, reached⟩
    constructor
    · intro fires _ entry _ _ level reached
      rcases reconcile_reached _ estimated authoritative level reached with settled | before
      · exact (fires level).mpr (.inr settled)
      · exact current level before
    · intro alerted level
      refine ⟨.inl, ?_⟩
      rintro (fired | reached)
      · exact fired
      · rcases reached_reconcile _ estimated authoritative level reached with settled | before
        · exact alerted rfl entry known window level settled
        · exact current level before
  | kept _ latch spent others unsettled =>
    rw [latch, spent]
    refine iff_of_true (fun level => ⟨.inl, ?_⟩) ?_
    · rintro (fired | reached)
      · exact fired
      · exact (exact level).mpr ⟨_, latches.spent, reached⟩
    · cases op with
      | settle other estimated authoritative nowUnix =>
        intro named entry known window
        subst named
        exact absurd window (unsettled estimated authoritative nowUnix entry rfl known)
      | _ => trivial

end

/-- The calls that the settlement of a response that was not streamed makes, one for each capped spender. -/
def terminalCharges (caps : List (CapId × CapTerms)) (charged nowUnix : Nat) : List Op :=
  caps.map fun cap => .meter cap.1 (some cap.2) charged nowUnix

/-- The settlement of a response that was not streamed is a run of metering calls, and raises their alerts. -/
theorem chargeTerminalAndLog_run (budgets : NodeBudgets) (caps : List (CapId × CapTerms)) (charged nowUnix : Nat) :
    Runs.exec step budgets (terminalCharges caps charged nowUnix) =
        some (budgets.chargeTerminalAndLog caps charged nowUnix).2.2 ∧
      (Runs.trace step (fun budgets op _ => budgets.raised op) budgets (terminalCharges caps charged nowUnix)).flatten =
        (budgets.chargeTerminalAndLog caps charged nowUnix).2.1 := by
  have folded : ∀ (outcomes : List MeterOutcome) (alerts : List Alert) (budgets : NodeBudgets),
      ∃ last raised, Runs.exec step budgets (terminalCharges caps charged nowUnix) = some last ∧
        (Runs.trace step (fun budgets op _ => budgets.raised op) budgets
          (terminalCharges caps charged nowUnix)).flatten = raised ∧
        (caps.foldl
          (fun sofar cap =>
            let metered := sofar.2.2.meter cap.1 (some cap.2) charged nowUnix
            (sofar.1 ++ [metered.1], sofar.2.1 ++ metered.2.1, metered.2.2))
          (outcomes, alerts, budgets)).2 = (alerts ++ raised, last) := by
    induction caps with
    | nil => exact fun _ alerts budgets => ⟨budgets, [], rfl, rfl, by simp⟩
    | cons cap caps ih =>
      intro outcomes alerts budgets
      obtain ⟨last, raised, executed, traced, same⟩ := ih
        (outcomes ++ [(budgets.meter cap.1 (some cap.2) charged nowUnix).1])
        (alerts ++ (budgets.meter cap.1 (some cap.2) charged nowUnix).2.1)
        (budgets.meter cap.1 (some cap.2) charged nowUnix).2.2
      refine ⟨last, (budgets.meter cap.1 (some cap.2) charged nowUnix).2.1 ++ raised, executed, ?_, ?_⟩
      · rw [← traced]
        rfl
      · rw [← List.append_assoc]
        exact same
  obtain ⟨last, raised, executed, traced, same⟩ := folded [] [] budgets
  rw [executed, traced]
  exact ⟨congrArg some (congrArg Prod.snd same).symm, (congrArg Prod.fst same).symm⟩

/-- In a window that opens with no spend, the alerts raised about a spender are at every point exactly those of the
    thresholds its spend has reached, if and only if the thresholds are positive and no settlement takes the spend to
    one of them before its alert. -/
theorem alerts_exact_iff (budgets : NodeBudgets) (id : CapId) (t : CapTerms) (opened : Nat)
    (opens : Opens budgets id t opened) (ops : List Op) (last : Watched)
    (executed : Runs.exec (Watched.step id t opened) (watch budgets id t opened) ops = some last) :
    (∀ first rest reached, ops = first ++ rest →
        Runs.exec (Watched.step id t opened) (watch budgets id t opened) first = some reached →
        AlertsExact id t reached) ↔
      0 < t.cap ∧ 0 < t.alertFraction ∧
        Runs.Along (Watched.step id t opened) (SettlesAlerted id t opened) (watch budgets id t opened) ops := by
  have initially : AlertsExact id t (watch budgets id t opened) ↔ 0 < t.cap ∧ 0 < t.alertFraction := by
    have spends : (watch budgets id t opened).spends = [0] := by rw [watch, opens.1]
    have fires : ∀ level : Level, level.fired (budgets.found id t opened).latch = false := by
      rw [opens.2]
      exact fun level => by cases level <;> rfl
    rw [(opens_latches opens).exact_iff, spends]
    show (∀ level : Level, level.fired (budgets.found id t opened).latch = true ↔ _) ↔ _
    simp only [fires, Bool.false_eq_true, List.mem_singleton, exists_eq_left, false_iff]
    constructor
    · intro unreached
      have hard : ¬ t.cap ≤ 0 := unreached .hard
      have soft : ¬ t.alertFraction ≤ ((0 : Nat) : ℚ) / t.cap := unreached .soft
      exact ⟨by omega, by simpa using soft⟩
    · rintro ⟨capped, fraction⟩ level
      cases level with
      | soft =>
        show ¬ t.alertFraction ≤ ((0 : Nat) : ℚ) / t.cap
        simpa using fraction
      | hard => exact Nat.not_le.mpr capped
  by_cases thresholds : 0 < t.cap ∧ 0 < t.alertFraction
  · have preserved : Runs.Preserves (Watched.step id t opened) (Latches id t opened) :=
      fun _ _ _ latches stepped => latches_step thresholds.1 latches stepped
    have keptIff : ∀ s op u, Latches id t opened s ∧ AlertsExact id t s → Watched.step id t opened s op = some u →
        (Latches id t opened u ∧ AlertsExact id t u ↔ SettlesAlerted id t opened s op) := by
      intro s op u both stepped
      rw [← exact_step thresholds.1 both.1 both.2 stepped]
      exact and_iff_right (preserved s op u both.1 stepped)
    have exact_along := Runs.along_iff_states keptIff ⟨opens_latches opens, initially.mpr thresholds⟩ executed
    have latched : ∀ first reached,
        Runs.exec (Watched.step id t opened) (watch budgets id t opened) first = some reached →
          Latches id t opened reached :=
      fun first reached ran => Runs.exec_preserves preserved (opens_latches opens) ran
    rw [and_iff_right thresholds.1, and_iff_right thresholds.2, exact_along]
    constructor
    · exact fun states first rest reached parts ran => ⟨latched first reached ran, states first rest reached parts ran⟩
    · exact fun states first rest reached parts ran => (states first rest reached parts ran).2
  · refine iff_of_false (fun states => thresholds (initially.mp ?_)) fun met => thresholds ⟨met.1, met.2.1⟩
    exact states [] ops _ rfl rfl

def mlTeam : CapId := ⟨"team", "ml"⟩

/-- A hundred tokens, with an alert at eighty. -/
def hundredTokens : CapTerms := ⟨100, none, 4 / 5⟩

/-- A stream that is settled below its estimate, and a second one that passes the cap. -/
def cutStreams : List Op :=
  [.meter mlTeam (some hundredTokens) 70 0, .settle mlTeam 70 60 1, .meter mlTeam (some hundredTokens) 50 2]

theorem cut_streams_alert :
    let start := watch (new "n1") mlTeam hundredTokens 0
    AlertsExact mlTeam hundredTokens
      ((Runs.exec (Watched.step mlTeam hundredTokens 0) start cutStreams).getD start) := by
  intro start
  have opens : Opens (new "n1") mlTeam hundredTokens 0 := by decide
  have executed := Runs.exec_eq_getD (Watched.step mlTeam hundredTokens 0) start cutStreams (by decide +kernel) start
  exact (alerts_exact_iff (new "n1") mlTeam hundredTokens 0 opens cutStreams _ executed).mpr
    ⟨by decide, by norm_num [hundredTokens], by decide +kernel⟩ cutStreams [] _ (List.append_nil _).symm executed

/-- A stream is estimated at fifty tokens and settled at a hundred and twenty, over the cap: no alert is raised. -/
theorem settlement_raises_no_alert :
    ¬ ∀ (budgets : NodeBudgets) (id : CapId) (t : CapTerms) (opened : Nat), Opens budgets id t opened →
      ∀ (ops : List Op) (last : Watched),
        Runs.exec (Watched.step id t opened) (watch budgets id t opened) ops = some last → AlertsExact id t last := by
  intro exact
  have opens : Opens (new "n1") mlTeam hundredTokens 0 := by decide
  let start := watch (new "n1") mlTeam hundredTokens 0
  let ops : List Op := [.meter mlTeam (some hundredTokens) 50 0, .settle mlTeam 50 120 1]
  have executed := Runs.exec_eq_getD (Watched.step mlTeam hundredTokens 0) start ops (by decide +kernel) start
  have missed :
      Level.count .hard mlTeam ((Runs.exec (Watched.step mlTeam hundredTokens 0) start ops).getD start).alerts ≠
      if ∃ spent ∈ ((Runs.exec (Watched.step mlTeam hundredTokens 0) start ops).getD start).spends,
        Level.reached hundredTokens .hard spent then 1 else 0 := by
    decide +kernel
  exact missed (exact (new "n1") mlTeam hundredTokens 0 opens ops _ executed .hard)

end NodeBudgets

end SmallGateway
