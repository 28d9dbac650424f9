import SmallGateway.FleetSpend

/-!
The loop that reports a node's spend (`gatewayd/src/client.rs`: `spawn_usage_reporter`). At every tick it first asks
which spenders escalate, and sends those alone when there are any; only otherwise does it read the spend of all. The
ledger is locked for each of the two readings by itself, so requests are metered in between.

A tick leaves a spender with spend out of its message exactly when another one escalates and it does not
(`ticks_carry_all_iff`).
-/

namespace SmallGateway

/-- A node's ledger and its reporter, which is past the escalation check of a tick or waits for the next one. -/
structure UsageReporter where
  budgets : NodeBudgets
  reporting : Bool

namespace UsageReporter

inductive Action where
  /-- A request, a grant or the connection uses the ledger. -/
  | call (op : NodeBudgets.Op)
  | tick (nowUnix : Nat)
  | report (nowUnix : Nat)

def step (reporter : UsageReporter) : Action → Option UsageReporter
  | .call op => (reporter.budgets.step op).map fun budgets => { reporter with budgets }
  | .tick nowUnix =>
    if reporter.reporting then none
    else
      let (escalating, budgets) := reporter.budgets.escalating nowUnix
      some ⟨budgets, escalating.isEmpty⟩
  | .report nowUnix =>
    if reporter.reporting then some ⟨(reporter.budgets.spendReport nowUnix).2, false⟩ else none

/-- The message a step sends. A send that fails ends the loop, so in a run every send succeeds. -/
def sends (reporter : UsageReporter) : Action → Option FleetSpend.ClientMessage
  | .call _ => none
  | .tick nowUnix =>
    let escalating := (reporter.budgets.escalating nowUnix).1
    if escalating.isEmpty then none else some (.syncCheck escalating)
  | .report nowUnix =>
    let report := (reporter.budgets.spendReport nowUnix).1
    if report.isEmpty then none else some (.usage report)

/-- The time of a step that ends a tick: the escalation check when it sends, the report in every case. -/
def endsTick (reporter : UsageReporter) : Action → Option Nat
  | .call _ => none
  | .tick nowUnix => if (reporter.budgets.escalating nowUnix).1.isEmpty then none else some nowUnix
  | .report nowUnix => some nowUnix

/-- A capped spender has spend in the window that is open now. -/
def HasSpend (budgets : NodeBudgets) (nowUnix : Nat) (id : CapId) (cap spent : Nat) : Prop :=
  ∃ entry, (budgets.rollAll nowUnix).inner[id]? = some entry ∧ entry.budget.cap = some cap ∧
    entry.budget.spent = spent ∧ spent ≠ 0

/-- A capped spender has consumed the escalation fraction of its share in the window that is open now. -/
def Escalates (budgets : NodeBudgets) (nowUnix : Nat) (id : CapId) : Prop :=
  ∃ (entry : Entry) (cap : Nat), (budgets.rollAll nowUnix).inner[id]? = some entry ∧
    entry.budget.cap = some cap ∧ entry.budget.consumedFraction ≥ escalationFraction

/-- A step that ends a tick carries every capped spender with spend. -/
def CarriesAll (reporter : UsageReporter) (action : Action) : Prop :=
  ∀ nowUnix ∈ reporter.endsTick action, ∀ (id : CapId) (cap spent : Nat),
    HasSpend reporter.budgets nowUnix id cap spent →
      ∃ message ∈ reporter.sends action, (id, cap, spent) ∈ message.spenders

/-- At a tick nobody escalates, or everybody with spend does. -/
def NoneHidden (reporter : UsageReporter) : Action → Prop
  | .tick nowUnix =>
    (∃ id, Escalates reporter.budgets nowUnix id) →
      ∀ (id : CapId) (cap spent : Nat), HasSpend reporter.budgets nowUnix id cap spent →
        Escalates reporter.budgets nowUnix id
  | _ => True

theorem hasSpend_iff {budgets : NodeBudgets} {nowUnix : Nat} {id : CapId} {cap spent : Nat} :
    HasSpend budgets nowUnix id cap spent ↔ (id, cap, spent) ∈ (budgets.spendReport nowUnix).1 := by
  rw [NodeBudgets.mem_spendReport]
  constructor
  · rintro ⟨entry, seen, capped, rfl, some⟩
    exact ⟨entry, seen, capped, rfl, some⟩
  · rintro ⟨entry, seen, capped, rfl, some⟩
    exact ⟨entry, seen, capped, rfl, some⟩

/-- The spenders of an escalation are those that escalate, with what they have spent. -/
theorem escalates_iff {budgets : NodeBudgets} {nowUnix : Nat} {id : CapId} :
    Escalates budgets nowUnix id ↔
      ∃ (cap spent : Nat), (id, cap, spent) ∈ (budgets.escalating nowUnix).1 := by
  constructor
  · rintro ⟨entry, cap, seen, capped, near⟩
    exact ⟨cap, entry.budget.spent, NodeBudgets.mem_escalating.mpr ⟨entry, seen, capped, rfl, near⟩⟩
  · rintro ⟨cap, spent, inside⟩
    obtain ⟨entry, seen, capped, -, near⟩ := NodeBudgets.mem_escalating.mp inside
    exact ⟨entry, cap, seen, capped, near⟩

theorem escalating_isEmpty {budgets : NodeBudgets} {nowUnix : Nat} :
    (budgets.escalating nowUnix).1.isEmpty = true ↔ ¬ ∃ id, Escalates budgets nowUnix id := by
  rw [List.isEmpty_iff, List.eq_nil_iff_forall_not_mem]
  constructor
  · rintro none ⟨id, escalates⟩
    obtain ⟨cap, spent, inside⟩ := escalates_iff.mp escalates
    exact none _ inside
  · rintro none ⟨id, cap, spent⟩ inside
    exact none ⟨id, escalates_iff.mpr ⟨cap, spent, inside⟩⟩

/-- A spender with spend is in the escalation's list exactly when it escalates. -/
theorem HasSpend.mem_escalating {budgets : NodeBudgets} {nowUnix : Nat} {id : CapId} {cap spent : Nat}
    (spend : HasSpend budgets nowUnix id cap spent) :
    (id, cap, spent) ∈ (budgets.escalating nowUnix).1 ↔ Escalates budgets nowUnix id := by
  refine ⟨fun inside => escalates_iff.mpr ⟨cap, spent, inside⟩, ?_⟩
  rintro ⟨entry, known, seen, capped, near⟩
  obtain ⟨same, found, stored, counted, -⟩ := spend
  rw [seen, Option.some.injEq] at found
  subst found
  exact NodeBudgets.mem_escalating.mpr ⟨entry, seen, stored, counted, near⟩

/-- The report of a tick that found nobody escalating carries everybody with spend. -/
theorem report_carriesAll (reporter : UsageReporter) (nowUnix : Nat) :
    reporter.CarriesAll (.report nowUnix) := by
  intro now ends id cap spent spend
  cases ends
  have inside := hasSpend_iff.mp spend
  have some : (reporter.budgets.spendReport nowUnix).1.isEmpty = false := by
    rw [List.isEmpty_eq_false_iff]
    exact List.ne_nil_of_mem inside
  exact ⟨.usage (reporter.budgets.spendReport nowUnix).1, by simp [sends, some], inside⟩

theorem tick_carriesAll_iff (reporter : UsageReporter) (nowUnix : Nat) :
    reporter.CarriesAll (.tick nowUnix) ↔ reporter.NoneHidden (.tick nowUnix) := by
  by_cases escalation : ∃ id, Escalates reporter.budgets nowUnix id
  · have some : (reporter.budgets.escalating nowUnix).1.isEmpty = false := by
      rw [Bool.eq_false_iff]
      exact fun empty => escalating_isEmpty.mp empty escalation
    have sent : reporter.sends (.tick nowUnix) =
        .some (.syncCheck (reporter.budgets.escalating nowUnix).1) := by
      simp [sends, some]
    have ends : reporter.endsTick (.tick nowUnix) = .some nowUnix := by simp [endsTick, some]
    constructor
    · intro carries _ id cap spent spend
      obtain ⟨message, isSent, inside⟩ := carries nowUnix ends id cap spent spend
      rw [sent] at isSent
      cases isSent
      exact spend.mem_escalating.mp inside
    · intro hidden now atNow id cap spent spend
      rw [ends] at atNow
      cases atNow
      exact ⟨_, sent, spend.mem_escalating.mpr (hidden escalation id cap spent spend)⟩
  · have none : reporter.endsTick (.tick nowUnix) = .none := by
      simp [endsTick, escalating_isEmpty.mpr escalation]
    constructor
    · intro _ found
      exact absurd found escalation
    · intro _ now atNow
      rw [none] at atNow
      cases atNow

theorem carriesAll_iff (reporter : UsageReporter) (action : Action) :
    reporter.CarriesAll action ↔ reporter.NoneHidden action := by
  cases action with
  | call op => exact ⟨fun _ => trivial, fun _ now ends => by cases ends⟩
  | tick nowUnix => exact tick_carriesAll_iff reporter nowUnix
  | report nowUnix => exact ⟨fun _ => trivial, fun _ => report_carriesAll reporter nowUnix⟩

/-- In every run of the reporter, whatever uses the ledger in between, each tick carries every capped spender with
    spend exactly when at each tick nobody escalates or everybody with spend does. -/
theorem ticks_carry_all_iff (reporter : UsageReporter) (as : List Action) :
    (∀ before action after s, as = before ++ action :: after → Runs.exec step reporter before = some s →
      s.CarriesAll action) ↔ Runs.Along step NoneHidden reporter as := by
  rw [Runs.along_iff_steps]
  constructor
  · intro carries before action after s parts reached
    exact (s.carriesAll_iff action).mp (carries before action after s parts reached)
  · intro hidden before action after s parts reached
    exact (s.carriesAll_iff action).mpr (hidden before action after s parts reached)

/-- A spender at 95 of its 100 tokens hides the 10 tokens of another one. -/
theorem escalation_hides_other_spend :
    ¬ ∀ (reporter : UsageReporter) (as before : List Action) (action : Action) (after : List Action)
        (s : UsageReporter), as = before ++ action :: after → Runs.exec step reporter before = some s →
        s.CarriesAll action := by
  intro carries
  let near : CapId := ⟨"team", "ml"⟩
  let hidden : CapId := ⟨"app", "chat"⟩
  let terms : CapTerms := ⟨100, none, 4 / 5⟩
  let ledger := (((NodeBudgets.new "n1").meter near (some terms) 95 0).2.2.meter hidden (some terms) 10 0).2.2
  let metered : List Action :=
    [.call (.meter near (some terms) 95 0), .call (.meter hidden (some terms) 10 0)]
  have carried := carries ⟨.new "n1", false⟩ (metered ++ [.tick 0]) metered (.tick 0) [] ⟨ledger, false⟩ rfl rfl
  have escalates : Escalates ledger 0 near := escalates_iff.mpr ⟨100, 95, by decide +kernel⟩
  have spend : HasSpend ledger 0 hidden 100 10 := hasSpend_iff.mpr (by decide)
  have silent : ¬ Escalates ledger 0 hidden := by
    rw [← spend.mem_escalating]
    decide +kernel
  exact silent ((carriesAll_iff _ _).mp carried ⟨near, escalates⟩ hidden 100 10 spend)

end UsageReporter

end SmallGateway
