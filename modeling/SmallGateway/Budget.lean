import Mathlib.Data.Rat.Floor
import Mathlib.Data.Nat.Find
import Std.Data.TreeMap.Lemmas

/-!
The node-local half of the spend caps (`gateway-core/src/budget.rs`): the capped spenders, their billing
windows, one node's counter against its share of a cap, and the latch that fires each alert once.

Counters are the naturals with the saturating addition of `u64`; a fraction that the source holds as a
floating-point number is read as the rational it stands for.
-/

namespace SmallGateway

/-- The largest `u64`. -/
def u64Max : Nat := 18446744073709551615

/-- `u64::saturating_add`. Its counterpart `saturating_sub` is subtraction of naturals. -/
def saturatingAdd (a b : Nat) : Nat := min (a + b) u64Max

theorem saturatingAdd_le (a b : Nat) : saturatingAdd a b ≤ a + b := Nat.min_le_left _ _

theorem saturatingAdd_eq {a b : Nat} (fits : a + b ≤ u64Max) : saturatingAdd a b = a + b :=
  Nat.min_eq_left fits

/-- Adding in two parts saturates as adding at once does. -/
theorem saturatingAdd_saturatingAdd (a b c : Nat) :
    saturatingAdd (saturatingAdd a b) c = saturatingAdd a (b + c) := by
  unfold saturatingAdd
  omega

theorem lt_saturatingAdd_iff {a b cap : Nat} :
    cap < saturatingAdd a b ↔ cap < a + b ∧ cap < u64Max := by
  simp [saturatingAdd]

/-- The consumption of its share at which a node escalates. -/
def escalationFraction : ℚ := 9 / 10

/-- The soft-alert threshold a cap has when its terms name none. -/
def softAlertFraction : ℚ := 4 / 5

/-- One capped spender: an attribution key and the resolved value that names it. -/
structure CapId where
  key : String
  value : String
  deriving DecidableEq, Repr

namespace CapId

/-- The derived order of the source: by key, then by value. -/
def cmp : CapId → CapId → Ordering := compareLex (compareOn CapId.key) (compareOn CapId.value)

instance : Ord CapId := ⟨cmp⟩

instance : Std.TransOrd CapId :=
  inferInstanceAs (Std.TransCmp (compareLex (compareOn CapId.key) (compareOn CapId.value)))

instance : Std.LawfulEqOrd CapId where
  eq_of_compare {a b} same := by
    have both : compare a.key b.key = .eq ∧ compare a.value b.value = .eq := by
      simpa [compare, cmp, compareLex, compareOn, Ordering.then_eq_eq] using same
    cases a
    cases b
    simp_all

end CapId

/-! ### Billing windows -/

/-- The period a windowed cap counts over; a cap with no window is a lifetime cap. -/
inductive Window where
  | minute
  | hour
  | day
  | month
  deriving DecidableEq, Repr

def isLeapYear (year : Nat) : Bool :=
  year % 4 == 0 && (year % 100 != 0 || year % 400 == 0)

/-- Days of the Gregorian calendar before the first day of a year. -/
def daysBeforeYear (year : Nat) : Nat :=
  (year - 1) * 365 + (year - 1) / 4 - (year - 1) / 100 + (year - 1) / 400

/-- Days of a year before the first day of its month, months counted from zero. -/
def daysBeforeMonth (year month0 : Nat) : Nat :=
  let common := [0, 31, 59, 90, 120, 151, 181, 212, 243, 273, 304, 334].getD month0 0
  if isLeapYear year && 2 ≤ month0 then common + 1 else common

/-- The first day of a month, both counted from 1 January 1970. -/
def monthStart (month : Nat) : Nat :=
  let year := 1970 + month / 12
  daysBeforeYear year - daysBeforeYear 1970 + daysBeforeMonth year (month % 12)

/-- The last timestamp the calendar library represents; past it the source falls back to the epoch. -/
def maxTimestamp : Nat := 8210266876799

/-- The month a day falls in, both counted from 1 January 1970. -/
def monthOfDay (days : Nat) : Nat :=
  Nat.findGreatest (fun month => monthStart month ≤ days) (days / 28)

/-- The id of the window that contains a time in seconds. -/
def Window.idAt (window : Window) (nowUnix : Nat) : Nat :=
  match window with
  | .minute => nowUnix / 60
  | .hour => nowUnix / 3600
  | .day => nowUnix / 86400
  | .month =>
    let timestamp := if nowUnix ≤ maxTimestamp then nowUnix else 0
    1970 * 12 + monthOfDay (timestamp / 86400)

/-- The composed enforcement terms of one capped value. -/
structure CapTerms where
  cap : Nat
  window : Option Window
  alertFraction : ℚ
  deriving DecidableEq, Repr

/-! ### One node's counter -/

/-- What a prospective spend should do. -/
inductive Verdict where
  | allow
  | escalate
  | deny (cap : Nat)
  deriving DecidableEq, Repr

def Verdict.isDeny : Verdict → Bool
  | .deny _ => true
  | _ => false

/-- One node's counter for one capped spender, the share of the cap it holds and the cap itself, absent
    when the value is uncapped. -/
structure LocalBudget where
  id : CapId
  cap : Option Nat
  share : Nat
  spent : Nat
  deriving DecidableEq, Repr

namespace LocalBudget

def new (id : CapId) (cap : Option Nat) (share : Nat) : LocalBudget := ⟨id, cap, share, 0⟩

def remaining (budget : LocalBudget) : Nat :=
  if budget.cap.isNone then u64Max else budget.share - budget.spent

def overspend (budget : LocalBudget) : Nat :=
  if budget.cap.isNone then 0 else budget.spent - budget.share

def setShare (budget : LocalBudget) (share : Nat) : LocalBudget := { budget with share }

def consumedFraction (budget : LocalBudget) : ℚ :=
  if budget.cap.isNone || budget.share == 0 then 0 else budget.spent / budget.share

/-- The verdict on a spend while the control plane is reachable: the whole cap denies, the share only
    escalates. -/
def check (budget : LocalBudget) (tokens : Nat) : Verdict :=
  match budget.cap with
  | none => .allow
  | some cap =>
    let prospective := saturatingAdd budget.spent tokens
    if prospective > cap then .deny cap
    else if budget.share > 0 ∧ (prospective : ℚ) ≥ escalationFraction * budget.share then .escalate
    else .allow

/-- The verdict on a spend while the control plane is unreachable: the held share denies. -/
def checkPartitioned (budget : LocalBudget) (tokens : Nat) : Verdict :=
  match budget.cap with
  | none => .allow
  | some cap =>
    let ceiling := min budget.share cap
    if saturatingAdd budget.spent tokens > ceiling then .deny cap else .allow

def commit (budget : LocalBudget) (tokens : Nat) : LocalBudget :=
  { budget with spent := saturatingAdd budget.spent tokens }

/-- Replaces the tokens already committed for a stream by the provider's own count. -/
def reconcile (budget : LocalBudget) (estimated authoritative : Nat) : LocalBudget :=
  if authoritative ≥ estimated then
    { budget with spent := saturatingAdd budget.spent (authoritative - estimated) }
  else
    { budget with spent := budget.spent - (estimated - authoritative) }

def resetWindowSpend (budget : LocalBudget) : LocalBudget := { budget with spent := 0 }

@[simp] theorem setShare_cap (budget : LocalBudget) (share : Nat) :
    (budget.setShare share).cap = budget.cap := rfl

@[simp] theorem setShare_spent (budget : LocalBudget) (share : Nat) :
    (budget.setShare share).spent = budget.spent := rfl

@[simp] theorem commit_cap (budget : LocalBudget) (tokens : Nat) :
    (budget.commit tokens).cap = budget.cap := rfl

@[simp] theorem commit_spent (budget : LocalBudget) (tokens : Nat) :
    (budget.commit tokens).spent = saturatingAdd budget.spent tokens := rfl

@[simp] theorem resetWindowSpend_cap (budget : LocalBudget) :
    budget.resetWindowSpend.cap = budget.cap := rfl

@[simp] theorem resetWindowSpend_spent (budget : LocalBudget) :
    budget.resetWindowSpend.spent = 0 := rfl

@[simp] theorem reconcile_cap (budget : LocalBudget) (estimated authoritative : Nat) :
    (budget.reconcile estimated authoritative).cap = budget.cap := by
  unfold reconcile
  split <;> rfl

theorem reconcile_spent (budget : LocalBudget) (estimated authoritative : Nat) :
    (budget.reconcile estimated authoritative).spent =
      if authoritative ≥ estimated then saturatingAdd budget.spent (authoritative - estimated)
      else budget.spent - (estimated - authoritative) := by
  unfold reconcile
  split <;> rfl

/-- Settling to the same count changes nothing, and no settlement raises the counter past its old value
    plus what the provider counted beyond the estimate. -/
theorem reconcile_spent_le (budget : LocalBudget) (estimated authoritative : Nat) :
    (budget.reconcile estimated authoritative).spent ≤ budget.spent + (authoritative - estimated) := by
  rw [reconcile_spent]
  split
  · exact saturatingAdd_le _ _
  · omega

/-- A connected node denies exactly when the spend would pass the stored cap; its share plays no part. -/
theorem check_isDeny (budget : LocalBudget) (tokens : Nat) :
    (budget.check tokens).isDeny = true ↔
      ∃ cap, budget.cap = some cap ∧ cap < saturatingAdd budget.spent tokens := by
  unfold check
  cases stored : budget.cap with
  | none => simp [Verdict.isDeny]
  | some cap =>
    by_cases passed : saturatingAdd budget.spent tokens > cap
    · simp [passed, Verdict.isDeny]
    · simp only [passed, if_false, Option.some.injEq, exists_eq_left', iff_false]
      split <;> simp [Verdict.isDeny]

theorem checkPartitioned_isDeny (budget : LocalBudget) (tokens : Nat) :
    (budget.checkPartitioned tokens).isDeny = true ↔
      ∃ cap, budget.cap = some cap ∧ min budget.share cap < saturatingAdd budget.spent tokens := by
  unfold checkPartitioned
  cases stored : budget.cap with
  | none => simp [Verdict.isDeny]
  | some cap =>
    by_cases passed : saturatingAdd budget.spent tokens > min budget.share cap
    · simp only [passed, if_true, Verdict.isDeny, Option.some.injEq, exists_eq_left']
    · simp only [passed, if_false, Verdict.isDeny, Option.some.injEq, exists_eq_left',
        Bool.false_eq_true]

end LocalBudget

/-! ### Alerts -/

/-- What an alert is about: the soft threshold with its fraction, or the hard cap. -/
inductive AlertKind where
  | softThreshold (fraction : ℚ)
  | hardCap
  deriving DecidableEq, Repr

/-- An alert raised where the cap is enforced. -/
structure Alert where
  kind : AlertKind
  id : CapId
  cap : Nat
  spend : Nat
  node : String
  deriving DecidableEq, Repr

/-- Which alerts of a spender have fired since the latch was last armed. -/
structure AlertLatch where
  softFired : Bool
  hardFired : Bool
  deriving DecidableEq, Repr

def AlertLatch.new : AlertLatch := ⟨false, false⟩

/-- The alerts a spend newly crosses, soft before hard, and the latch that remembers them. -/
def AlertLatch.cross (latch : AlertLatch) (id : CapId) (cap spend : Nat) (node : String)
    (softFraction : ℚ) : List Alert × AlertLatch :=
  if cap = 0 then ([], latch)
  else
    let soft := !latch.softFired && decide ((spend : ℚ) / cap ≥ softFraction)
    let hard := !latch.hardFired && decide (spend ≥ cap)
    ((if soft then [⟨.softThreshold softFraction, id, cap, spend, node⟩] else []) ++
        (if hard then [⟨.hardCap, id, cap, spend, node⟩] else []),
      ⟨latch.softFired || soft, latch.hardFired || hard⟩)

end SmallGateway
