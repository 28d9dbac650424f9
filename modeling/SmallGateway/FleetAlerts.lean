import SmallGateway.FleetBudgets
import SmallGateway.NodeAlerts

/-!
The alerts that the control plane raises about the spend of the whole fleet (`gatewayctl/src/budget.rs`). A report that
lowers the total arms them again, as if a node had rolled into a new window; but settlements lower the figures of a
node within a window too. So an alert is raised once unless the total is lowered after it has been at the threshold,
and is then reported at the threshold again (`fires_once_iff`).
-/

namespace SmallGateway

namespace FleetBudgets

/-- A call on the ledger of the fleet. -/
inductive Op where
  | reportSpend (nodeId : String) (id : CapId) (cap spent : Nat)
  | forgetNode (nodeId : String)
  | observeCap (id : CapId) (cap : Nat)

/-- The latch of a spender. -/
def latch (budgets : FleetBudgets) (id : CapId) : AlertLatch :=
  ⟨(budgets.capState id).softFired, (budgets.capState id).hardFired⟩

/-- The terms whose thresholds the fleet is held to. -/
def fleetTerms (cap : Nat) : CapTerms := ⟨cap, none, softAlertFraction⟩

/-- The total is at the threshold of the cap, if there is a cap. -/
def AtThreshold (level : Level) (entry : CapState) : Prop :=
  0 < entry.cap ∧ level.reached (fleetTerms entry.cap) entry.totalSpend

instance (level : Level) (entry : CapState) : Decidable (AtThreshold level entry) :=
  inferInstanceAs (Decidable (_ ∧ _))

/-- The ledger with the alerts it has returned about one spender, and for each threshold whether a report of the
    spender has left the total at it, and whether a report since has lowered the total. -/
structure Watched where
  budgets : FleetBudgets
  alerts : List Alert
  peaked : Level → Bool
  fell : Level → Bool

/-- The entry of a spender once a figure is recorded. -/
def recorded (budgets : FleetBudgets) (nodeId : String) (id : CapId) (cap spent : Nat) : CapState :=
  (budgets.capState id).record nodeId cap spent

/-- The figure lowers the total. -/
def Lowers (budgets : FleetBudgets) (nodeId : String) (id : CapId) (cap spent : Nat) : Prop :=
  (budgets.recorded nodeId id cap spent).totalSpend < (budgets.capState id).totalSpend

instance (budgets : FleetBudgets) (nodeId : String) (id : CapId) (cap spent : Nat) :
    Decidable (budgets.Lowers nodeId id cap spent) :=
  inferInstanceAs (Decidable (_ < _))

def Watched.step (id : CapId) (watched : Watched) : Op → Option Watched
  | .reportSpend nodeId other cap spent =>
    let (alerts, after) := watched.budgets.reportSpend nodeId other cap spent
    if other = id then
      some {
        budgets := after
        alerts := watched.alerts ++ alerts
        peaked := fun level =>
          watched.peaked level || decide (AtThreshold level (watched.budgets.recorded nodeId id cap spent))
        fell := fun level =>
          watched.fell level || (watched.peaked level && decide (watched.budgets.Lowers nodeId id cap spent)) }
    else some { watched with budgets := after, alerts := watched.alerts ++ alerts }
  | .forgetNode nodeId => some { watched with budgets := watched.budgets.forgetNode nodeId }
  | .observeCap other cap => some { watched with budgets := watched.budgets.observeCap other cap }

/-- The ledger as a window opens. -/
def watch (budgets : FleetBudgets) : Watched := ⟨budgets, [], fun _ => false, fun _ => false⟩

/-- Each alert about the spender has been returned once at most. -/
def FiresOnce (id : CapId) (watched : Watched) : Prop := ∀ level : Level, level.count id watched.alerts ≤ 1

/-- A report does not leave the total at a threshold once the total has been at it and was lowered since. -/
def StaysDown (id : CapId) (watched : Watched) : Op → Prop
  | .reportSpend nodeId other cap spent =>
    other = id → ∀ level : Level, watched.peaked level = true →
      watched.fell level = true ∨ watched.budgets.Lowers nodeId id cap spent →
        ¬ AtThreshold level (watched.budgets.recorded nodeId id cap spent)
  | _ => True

instance (id : CapId) (watched : Watched) : ∀ op, Decidable (StaysDown id watched op)
  | .reportSpend nodeId other cap spent =>
    inferInstanceAs (Decidable (other = id → ∀ level : Level, watched.peaked level = true →
      watched.fell level = true ∨ watched.budgets.Lowers nodeId id cap spent →
        ¬ AtThreshold level (watched.budgets.recorded nodeId id cap spent)))
  | .forgetNode _ => isTrue trivial
  | .observeCap .. => isTrue trivial

/-- The latch has fired for the thresholds that were reached, as long as the total was not lowered since, and each of
    these has returned one alert. -/
structure Account (id : CapId) (watched : Watched) : Prop where
  fired : ∀ level : Level, level.fired (watched.budgets.latch id) = (watched.peaked level && !watched.fell level)
  counts : ∀ level : Level, level.count id watched.alerts = if watched.peaked level then 1 else 0
  fell : ∀ level : Level, watched.fell level = true → watched.peaked level = true

/-! ### One report -/

/-- The alerts about a total are those of a latch that crosses it. -/
theorem fleetAlerts_cross (id : CapId) (entry : CapState) :
    (fleetAlerts id entry).1 =
        (AlertLatch.cross ⟨entry.softFired, entry.hardFired⟩ id entry.cap entry.totalSpend fleetNode
          softAlertFraction).1 ∧
      (⟨(fleetAlerts id entry).2.softFired, (fleetAlerts id entry).2.hardFired⟩ : AlertLatch) =
        (AlertLatch.cross ⟨entry.softFired, entry.hardFired⟩ id entry.cap entry.totalSpend fleetNode
          softAlertFraction).2 := by
  unfold fleetAlerts AlertLatch.cross
  by_cases uncapped : entry.cap = 0
  · simp [uncapped]
  · simp [uncapped]

section

variable {id : CapId} {entry : CapState} {budgets : FleetBudgets} {watched next : Watched} {op : Op}

/-- Alerts are returned for the thresholds that the total is at and whose latch has not fired. -/
theorem fleetAlerts_count (level : Level) :
    level.count id (fleetAlerts id entry).1 =
      if level.fired ⟨entry.softFired, entry.hardFired⟩ = false ∧ AtThreshold level entry then 1 else 0 := by
  rw [(fleetAlerts_cross id entry).1]
  by_cases capped : 0 < entry.cap
  · have crossed : level.count id
        (AlertLatch.cross ⟨entry.softFired, entry.hardFired⟩ id entry.cap entry.totalSpend fleetNode
          softAlertFraction).1 =
        if level.fired ⟨entry.softFired, entry.hardFired⟩ = false ∧
          level.reached (fleetTerms entry.cap) entry.totalSpend then 1 else 0 :=
      Level.cross_count (t := fleetTerms entry.cap) capped entry.totalSpend fleetNode level
    rw [crossed]
    simp [AtThreshold, capped]
  · have uncapped : entry.cap = 0 := by omega
    simp [AlertLatch.cross, uncapped, AtThreshold, Level.count]

theorem fleetAlerts_fired (level : Level) :
    level.fired ⟨(fleetAlerts id entry).2.softFired, (fleetAlerts id entry).2.hardFired⟩ = true ↔
      level.fired ⟨entry.softFired, entry.hardFired⟩ = true ∨ AtThreshold level entry := by
  rw [(fleetAlerts_cross id entry).2]
  by_cases capped : 0 < entry.cap
  · have crossed : level.fired
        (AlertLatch.cross ⟨entry.softFired, entry.hardFired⟩ id entry.cap entry.totalSpend fleetNode
          softAlertFraction).2 = true ↔
        level.fired ⟨entry.softFired, entry.hardFired⟩ = true ∨
          level.reached (fleetTerms entry.cap) entry.totalSpend :=
      Level.cross_fired (t := fleetTerms entry.cap) _ id capped entry.totalSpend fleetNode level
    rw [crossed]
    simp [AtThreshold, capped]
  · have uncapped : entry.cap = 0 := by omega
    simp [AlertLatch.cross, uncapped, AtThreshold]

/-- A figure that lowers the total arms both alerts, and any other leaves them. -/
theorem recorded_fired (budgets : FleetBudgets) (id : CapId) (nodeId : String) (cap spent : Nat) (level : Level) :
    level.fired ⟨(budgets.recorded nodeId id cap spent).softFired, (budgets.recorded nodeId id cap spent).hardFired⟩ =
      (!decide (budgets.Lowers nodeId id cap spent) && level.fired (budgets.latch id)) := by
  by_cases lowers : budgets.Lowers nodeId id cap spent
  · have armed : budgets.recorded nodeId id cap spent =
        ⟨max (budgets.capState id).cap cap, (budgets.capState id).perNodeSpend.insert nodeId spent, false, false⟩ := by
      have total := lowers
      simp only [Lowers, recorded, CapState.totalSpend, CapState.record_perNodeSpend] at total
      rw [recorded, CapState.record]
      exact if_pos total
    rw [armed]
    cases level <;> simp [lowers, Level.fired]
  · have kept : budgets.recorded nodeId id cap spent =
        { budgets.capState id with
          cap := max (budgets.capState id).cap cap
          perNodeSpend := (budgets.capState id).perNodeSpend.insert nodeId spent } := by
      have total := lowers
      simp only [Lowers, recorded, CapState.totalSpend, CapState.record_perNodeSpend] at total
      rw [recorded, CapState.record]
      exact if_neg total
    rw [kept]
    cases level <;> simp [lowers, Level.fired, latch]

theorem latch_put (entry : CapState) : (budgets.put id entry).latch id = ⟨entry.softFired, entry.hardFired⟩ := by
  simp [latch, capState]

theorem latch_congr {after : FleetBudgets} (same : after.caps[id]? = budgets.caps[id]?) :
    after.latch id = budgets.latch id := by
  simp [latch, capState, same]

theorem latch_forgetNode (nodeId : String) : (budgets.forgetNode nodeId).latch id = budgets.latch id := by
  cases known : budgets.caps[id]? with
  | none => simp [latch, capState, forgetNode, known]
  | some entry => simp [latch, capState, forgetNode, known]

theorem latch_observeCap (other : CapId) (cap : Nat) : (budgets.observeCap other cap).latch id = budgets.latch id := by
  by_cases same : other = id
  · subst same
    rw [observeCap, latch_put, latch]
  · exact latch_congr (put_other budgets _ (Ne.symm same))

/-- A report of another spender returns no alert about this one. -/
theorem reportSpend_others {nodeId : String} {other : CapId} {cap spent : Nat} (different : other ≠ id) :
    ∀ alert ∈ (budgets.reportSpend nodeId other cap spent).1, alert.id ≠ id := by
  intro alert returned named
  have raised : alert ∈ (fleetAlerts other ((budgets.capState other).record nodeId cap spent)).1 := returned
  rw [(fleetAlerts_cross other _).1] at raised
  exact different ((Level.cross_id alert raised).symm.trans named)

/-! ### Windows -/

theorem watch_account (unfired : budgets.latch id = .new) : Account id (watch budgets) where
  fired := by
    intro level
    show level.fired (budgets.latch id) = false
    rw [unfired]
    cases level <;> rfl
  counts := fun level => rfl
  fell := fun level lowered => nomatch lowered

theorem Account.firesOnce (account : Account id watched) : FiresOnce id watched := by
  intro level
  rw [account.counts level]
  split <;> omega

/-- An alert that was returned twice stays so. -/
theorem firesOnce_before (stepped : Watched.step id watched op = some next) (once : FiresOnce id next) :
    FiresOnce id watched := by
  have grown : ∃ more, next.alerts = watched.alerts ++ more := by
    cases op with
    | reportSpend nodeId other cap spent =>
      simp only [Watched.step] at stepped
      split at stepped
      · obtain rfl := Option.some.inj stepped
        exact ⟨_, rfl⟩
      · obtain rfl := Option.some.inj stepped
        exact ⟨_, rfl⟩
    | forgetNode nodeId =>
      obtain rfl := Option.some.inj stepped
      exact ⟨[], (List.append_nil _).symm⟩
    | observeCap other cap =>
      obtain rfl := Option.some.inj stepped
      exact ⟨[], (List.append_nil _).symm⟩
  obtain ⟨more, alerts⟩ := grown
  intro level
  have total := once level
  rw [alerts, Level.count_append] at total
  omega

/-- A step that leaves the latch, and returns no alert about the spender. -/
theorem Account.quiet (account : Account id watched) {after : FleetBudgets} {more : List Alert}
    (latch : after.latch id = watched.budgets.latch id) (others : ∀ alert ∈ more, alert.id ≠ id) :
    Account id { watched with budgets := after, alerts := watched.alerts ++ more } where
  fired := fun level => (congrArg level.fired latch).trans (account.fired level)
  counts := by
    intro level
    rw [Level.count_append, Level.count_others others, Nat.add_zero]
    exact account.counts level
  fell := account.fell

/-- What a report does to the alerts about its spender. -/
theorem reportSpend_level (account : Account id watched) (nodeId : String) (cap spent : Nat) (level : Level) :
    level.count id (watched.alerts ++ (watched.budgets.reportSpend nodeId id cap spent).1) =
        (if watched.peaked level then 1 else 0) +
          (if (watched.peaked level = true → watched.fell level = true ∨ watched.budgets.Lowers nodeId id cap spent) ∧
              AtThreshold level (watched.budgets.recorded nodeId id cap spent) then 1 else 0) ∧
      (level.fired ((watched.budgets.reportSpend nodeId id cap spent).2.latch id) = true ↔
        (watched.peaked level = true ∧ watched.fell level = false ∧ ¬ watched.budgets.Lowers nodeId id cap spent) ∨
          AtThreshold level (watched.budgets.recorded nodeId id cap spent)) := by
  have before := recorded_fired watched.budgets id nodeId cap spent level
  rw [account.fired level] at before
  have put : (watched.budgets.reportSpend nodeId id cap spent).2 =
      watched.budgets.put id (fleetAlerts id (watched.budgets.recorded nodeId id cap spent)).2 := rfl
  have raised : (watched.budgets.reportSpend nodeId id cap spent).1 =
      (fleetAlerts id (watched.budgets.recorded nodeId id cap spent)).1 := rfl
  constructor
  · rw [Level.count_append, account.counts level, raised, fleetAlerts_count, before]
    congr 1
    refine if_congr (and_congr_left' ?_) rfl rfl
    cases watched.peaked level <;> cases watched.fell level <;> simp
  · rw [put, latch_put, fleetAlerts_fired, before]
    cases watched.peaked level <;> cases watched.fell level <;> simp

/-- A report of the spender keeps its alerts single when it does not leave the total at a threshold again. -/
theorem report_step (account : Account id watched) {nodeId : String} {cap spent : Nat}
    (stepped : Watched.step id watched (.reportSpend nodeId id cap spent) = some next) :
    (FiresOnce id next ↔ StaysDown id watched (.reportSpend nodeId id cap spent)) ∧
      (FiresOnce id next → Account id next) := by
  simp only [Watched.step, if_true, Option.some.injEq] at stepped
  subst stepped
  have counts := fun level => (reportSpend_level account nodeId cap spent level).1
  have fires := fun level => (reportSpend_level account nodeId cap spent level).2
  have once : ∀ level : Level,
      level.count id (watched.alerts ++ (watched.budgets.reportSpend nodeId id cap spent).1) ≤ 1 ↔
        (watched.peaked level = true → watched.fell level = true ∨ watched.budgets.Lowers nodeId id cap spent →
          ¬ AtThreshold level (watched.budgets.recorded nodeId id cap spent)) := by
    intro level
    rw [counts level]
    by_cases peaked : watched.peaked level = true
    · by_cases again : (watched.fell level = true ∨ watched.budgets.Lowers nodeId id cap spent) ∧
          AtThreshold level (watched.budgets.recorded nodeId id cap spent)
      · simp [peaked, again]
      · have down : watched.fell level = true ∨ watched.budgets.Lowers nodeId id cap spent →
            ¬ AtThreshold level (watched.budgets.recorded nodeId id cap spent) :=
          fun lowered there => again ⟨lowered, there⟩
        simpa [peaked, again] using down
    · rw [if_neg peaked, Nat.zero_add]
      refine iff_of_true ?_ fun there => absurd there peaked
      split <;> omega
  refine ⟨⟨fun single _ level => (once level).mp (single level), fun down level => (once level).mpr (down rfl level)⟩,
    fun single => ⟨fun level => ?_, fun level => ?_, fun level => ?_⟩⟩
  · have down := (once level).mp (single level)
    have lowered := account.fell level
    rw [Bool.eq_iff_iff, fires level]
    dsimp only
    cases peaked : watched.peaked level <;> cases fell : watched.fell level <;> grind
  · have down := (once level).mp (single level)
    rw [counts level]
    dsimp only
    by_cases peaked : watched.peaked level = true
    · have still : ¬ ((watched.peaked level = true → watched.fell level = true ∨
          watched.budgets.Lowers nodeId id cap spent) ∧
            AtThreshold level (watched.budgets.recorded nodeId id cap spent)) :=
        fun again => down peaked (again.1 peaked) again.2
      rw [if_neg still]
      simp [peaked]
    · simp [peaked]
  · have lowered := account.fell level
    dsimp only
    cases peaked : watched.peaked level <;> grind

theorem account_step (account : Account id watched) (stepped : Watched.step id watched op = some next) :
    (FiresOnce id next ↔ StaysDown id watched op) ∧ (FiresOnce id next → Account id next) := by
  have quiet : Account id next → StaysDown id watched op →
      (FiresOnce id next ↔ StaysDown id watched op) ∧ (FiresOnce id next → Account id next) :=
    fun next down => ⟨iff_of_true next.firesOnce down, fun _ => next⟩
  cases op with
  | reportSpend nodeId other cap spent =>
    by_cases same : other = id
    · subst same
      exact report_step account stepped
    · simp only [Watched.step, if_neg same, Option.some.injEq] at stepped
      subst stepped
      refine quiet (account.quiet (latch_congr ?_) (reportSpend_others same)) fun named => absurd named same
      exact reportSpend_other watched.budgets nodeId cap spent (Ne.symm same)
  | forgetNode nodeId =>
    obtain rfl := Option.some.inj stepped
    have kept := account.quiet (latch_forgetNode nodeId) (List.forall_mem_nil fun alert : Alert => alert.id ≠ id)
    rw [List.append_nil] at kept
    exact quiet kept trivial
  | observeCap other cap =>
    obtain rfl := Option.some.inj stepped
    have kept := account.quiet (latch_observeCap other cap) (List.forall_mem_nil fun alert : Alert => alert.id ≠ id)
    rw [List.append_nil] at kept
    exact quiet kept trivial

end

open NodeBudgets (mlTeam)

/-- Two nodes pass the cap together, one of them settles below its estimate before that, and leaves after it. -/
def settledReports : List Op :=
  [.reportSpend "n1" mlTeam 100 50, .reportSpend "n2" mlTeam 100 20, .reportSpend "n1" mlTeam 100 40,
    .reportSpend "n2" mlTeam 100 70, .forgetNode "n2", .reportSpend "n1" mlTeam 100 60]

end FleetBudgets

end SmallGateway
