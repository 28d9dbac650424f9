import SmallGateway.StreamCharges

/-!
What a node's counters hold while streams come and go (`gatewayd/src/budget.rs`: `meter`, `settle`;
`gateway-core/src/budget.rs`: `commit`, `reconcile`). A stream is admitted for each of its capped spenders, meters any
number of deltas, and settles once, to the provider's count when one came. The calls of any number of streams interleave
with each other and with the calls of the control-plane client. A settlement only corrects the counter, by saturating
arithmetic, and other streams move the counter meanwhile. As long as the totals fit the counter nothing is lost or
invented: a lifetime spender's counter is what its settled streams came to, and the deltas of those in flight
(`ledger_conserved`).
-/

namespace SmallGateway

namespace Conservation

open NodeBudgets (Lifetime Seen)

/-- What one stream meters and settles for one of its spenders. -/
structure Bill where
  stream : Nat
  id : CapId
  terms : CapTerms
  deltas : List Nat
  /-- Once settled, the provider's count, when there was one. -/
  settled : Option (Option Nat)

/-- The stream's own estimate: what it metered. -/
def Bill.estimate (bill : Bill) : Nat := bill.deltas.sum

def Bill.meter (bill : Bill) (delta : Nat) : Bill := { bill with deltas := bill.deltas ++ [delta] }

def Bill.settle (bill : Bill) (authoritative : Option Nat) : Bill := { bill with settled := some authoritative }

structure State where
  budgets : NodeBudgets
  bills : List Bill

def State.start (nodeId : String) : State := ⟨.new nodeId, []⟩

/-- One call on the ledger: of a stream, named by its place among the bills once it is admitted, or of the client of
    the control plane. -/
inductive Action
  | admitCap (stream : Nat) (id : CapId) (terms : CapTerms) (nowUnix : Nat)
  | meter (k delta nowUnix : Nat)
  | settle (k : Nat) (authoritative : Option Nat) (nowUnix : Nat)
  | applyShares (grants : List (CapId × Nat × Nat))
  | setPartitioned (on : Bool)
  | spendReport (nowUnix : Nat)
  | escalating (nowUnix : Nat)

/-- The bill at a place, while its stream is in flight. -/
def State.open? (s : State) (k : Nat) : Option Bill := s.bills[k]?.filter fun bill => bill.settled.isNone

/-- A stream that is refused gets no bill; one that is settled makes no further call. -/
def step (s : State) : Action → Option State
  | .admitCap stream id terms nowUnix =>
    let (verdict, budgets) := s.budgets.admitRequest id (some terms) nowUnix
    some ⟨budgets, if verdict.isDeny then s.bills else s.bills ++ [⟨stream, id, terms, [], none⟩]⟩
  | .meter k delta nowUnix =>
    (s.open? k).map fun bill =>
      ⟨(s.budgets.meter bill.id (some bill.terms) delta nowUnix).2.2,
        s.bills.set k (bill.meter delta)⟩
  | .settle k authoritative nowUnix =>
    (s.open? k).map fun bill =>
      ⟨Stream.settleOne s.budgets bill.id bill.estimate authoritative nowUnix,
        s.bills.set k (bill.settle authoritative)⟩
  | .applyShares grants => some { s with budgets := s.budgets.applyShares grants }
  | .setPartitioned on => some { s with budgets := s.budgets.setPartitioned on }
  | .spendReport nowUnix => some { s with budgets := (s.budgets.spendReport nowUnix).2 }
  | .escalating nowUnix => some { s with budgets := (s.budgets.escalating nowUnix).2 }

/-! ### Totals -/

/-- What a settled bill came to for a spender. -/
def Bill.settledFor (id : CapId) (bill : Bill) : Nat :=
  if bill.id = id then
    match bill.settled with
    | some authoritative => authoritative.getD bill.estimate
    | none => 0
  else 0

/-- What a bill in flight has metered for a spender. -/
def Bill.inFlightFor (id : CapId) (bill : Bill) : Nat :=
  if bill.id = id ∧ bill.settled = none then bill.estimate else 0

theorem Bill.open_for (id : CapId) {bill : Bill} (unsettled : bill.settled = none) :
    bill.settledFor id = 0 ∧ bill.inFlightFor id = if bill.id = id then bill.estimate else 0 := by
  simp [settledFor, inFlightFor, unsettled]

theorem Bill.settle_for (id : CapId) (bill : Bill) (authoritative : Option Nat) :
    (bill.settle authoritative).settledFor id = (if bill.id = id then authoritative.getD bill.estimate else 0) ∧
      (bill.settle authoritative).inFlightFor id = 0 :=
  ⟨rfl, if_neg fun inFlight => nomatch inFlight.2⟩

theorem Bill.meter_for (id : CapId) {bill : Bill} (unsettled : bill.settled = none) (delta : Nat) :
    (bill.meter delta).settledFor id = bill.settledFor id ∧
      (bill.meter delta).inFlightFor id = bill.inFlightFor id + if bill.id = id then delta else 0 := by
  have still : (bill.meter delta).settled = none := unsettled
  rw [(open_for id unsettled).1, (open_for id unsettled).2, (open_for id still).1, (open_for id still).2]
  by_cases same : bill.id = id
  · simp [meter, estimate, same]
  · simp [meter, same]

/-- The sum over the settled streams of the provider's count or, when there was none, of the estimate. -/
def State.settledTotal (s : State) (id : CapId) : Nat := (s.bills.map (Bill.settledFor id)).sum

/-- The sum of the deltas of the streams in flight. -/
def State.inFlight (s : State) (id : CapId) : Nat := (s.bills.map (Bill.inFlightFor id)).sum

/-- The totals of the spender fit the counter after the call. -/
def Fits (id : CapId) (s : State) (action : Action) : Prop :=
  ∀ t ∈ step s action, t.settledTotal id + t.inFlight id ≤ u64Max

instance (id : CapId) (s : State) (action : Action) : Decidable (Fits id s action) := by
  unfold Fits
  infer_instance

/-- The call composes no billing window for the spender. -/
def Action.IsLifetime (id : CapId) : Action → Prop
  | .admitCap _ other terms _ => other = id → terms.window = none
  | _ => True

/-- Replacing an item changes a sum by what the item contributes. -/
theorem sum_map_set {α : Type*} (f : α → Nat) {items : List α} {k : Nat} {before : α} (found : items[k]? = some before)
    (after : α) : ((items.set k after).map f).sum + f before = (items.map f).sum + f after := by
  induction items generalizing k with
  | nil => cases found
  | cons first rest ih =>
    cases k with
    | zero =>
      obtain rfl := Option.some.inj found
      simp only [List.set_cons_zero, List.map_cons, List.sum_cons]
      omega
    | succ k =>
      have others := ih found
      simp only [List.set_cons_succ, List.map_cons, List.sum_cons]
      omega

/-- What holds of a lifetime spender: its streams were admitted without a window, its entry is there as soon as it has
    a stream, and the counter is conserved. -/
structure Balanced (id : CapId) (s : State) : Prop where
  lifetime : Lifetime id s.budgets
  bills : ∀ bill ∈ s.bills, bill.id = id → bill.terms.window = none ∧ Seen id s.budgets
  conserved : s.budgets.spentOf id = s.settledTotal id + s.inFlight id

section

variable {id : CapId} {s t : State}

/-- A call that leaves the bills and the spender's counter keeps the balance. -/
theorem Balanced.quiet (balanced : Balanced id s) {budgets : NodeBudgets} (lifetime : Lifetime id budgets)
    (same : budgets.spentOf id = s.budgets.spentOf id) (seen : Seen id s.budgets → Seen id budgets) :
    Balanced id { s with budgets } where
  lifetime := lifetime
  bills := fun bill inside named => (balanced.bills bill inside named).imp_right seen
  conserved := same.trans balanced.conserved

/-- The bills after a call that replaces one by another of the same stream. -/
theorem Balanced.replaced (balanced : Balanced id s) {k : Nat} {bill : Bill} (found : s.bills[k]? = some bill)
    (next : Bill) (sameId : next.id = bill.id) (sameTerms : next.terms = bill.terms) {budgets : NodeBudgets}
    (seen : Seen id s.budgets → Seen id budgets) :
    ∀ other ∈ s.bills.set k next, other.id = id → other.terms.window = none ∧ Seen id budgets := by
  intro other inside named
  rcases List.mem_or_eq_of_mem_set inside with before | rfl
  · exact (balanced.bills other before named).imp_right seen
  · rw [sameTerms]
    rw [sameId] at named
    exact (balanced.bills bill (List.mem_of_getElem? found) named).imp_right seen

theorem open?_spec {k : Nat} {bill : Bill} (opened : s.open? k = some bill) :
    s.bills[k]? = some bill ∧ bill.settled = none := by
  obtain ⟨found, unsettled⟩ := Option.filter_eq_some_iff.mp opened
  exact ⟨found, Option.isNone_iff_eq_none.mp unsettled⟩

theorem balanced_admit (balanced : Balanced id s) {stream nowUnix : Nat} {other : CapId} {terms : CapTerms}
    (lifetime : Action.IsLifetime id (.admitCap stream other terms nowUnix))
    (stepped : step s (.admitCap stream other terms nowUnix) = some t) : Balanced id t := by
  simp only [step, Option.some.injEq] at stepped
  subst stepped
  have window : other = id → ∀ named, some terms = some named → named.window = none := by
    intro same named isTerms
    obtain rfl := Option.some.inj isTerms
    exact lifetime same
  obtain ⟨still, same⟩ := balanced.lifetime.admitRequest window nowUnix
  have entered : Seen other (s.budgets.admitRequest other (some terms) nowUnix).2 := 
    ⟨_, NodeBudgets.admit_entry s.budgets other (some terms) nowUnix⟩
  have seen : Seen id s.budgets → Seen id (s.budgets.admitRequest other (some terms) nowUnix).2 := fun seen =>
    seen.of_touched entered fun different => NodeBudgets.admit_other s.budgets (some terms) nowUnix different
  have kept := balanced.quiet still same seen
  by_cases denied : (s.budgets.admitRequest other (some terms) nowUnix).1.isDeny = true
  · rw [if_pos denied]
    exact kept
  · rw [if_neg denied]
    refine ⟨still, ?_, ?_⟩
    · intro bill inside named
      rcases List.mem_append.mp inside with before | new
      · exact kept.bills bill before named
      · obtain rfl := List.mem_singleton.mp new
        exact ⟨lifetime named, named ▸ entered⟩
    · have fresh : Bill.settledFor id ⟨stream, other, terms, [], none⟩ = 0 ∧
          Bill.inFlightFor id ⟨stream, other, terms, [], none⟩ = 0 := by
        simp [Bill.open_for, Bill.estimate]
      rw [kept.conserved]
      simp [State.settledTotal, State.inFlight, fresh]

/-- A delta is added to the counter and to what is in flight. -/
theorem balanced_meter (balanced : Balanced id s) {k delta nowUnix : Nat} (fits : Fits id s (.meter k delta nowUnix))
    (stepped : step s (.meter k delta nowUnix) = some t) : Balanced id t := by
  have total := fits t stepped
  obtain ⟨bill, opened, rfl⟩ := Option.map_eq_some_iff.mp stepped
  obtain ⟨found, unsettled⟩ := open?_spec opened
  have window : bill.id = id → ∀ named, some bill.terms = some named → named.window = none := by
    intro same named isTerms
    obtain rfl := Option.some.inj isTerms
    exact (balanced.bills bill (List.mem_of_getElem? found) same).1
  obtain ⟨still, spent⟩ := balanced.lifetime.meter window delta nowUnix
  refine ⟨still, ?_, ?_⟩
  · exact balanced.replaced found (bill.meter delta) rfl rfl fun seen =>
      seen.meter bill.id (some bill.terms) delta nowUnix
  · have settled := sum_map_set (Bill.settledFor id) found (bill.meter delta)
    have inFlight := sum_map_set (Bill.inFlightFor id) found (bill.meter delta)
    have conserved := balanced.conserved
    obtain ⟨sameSettled, moreInFlight⟩ := Bill.meter_for id unsettled delta
    rw [sameSettled] at settled
    rw [moreInFlight] at inFlight
    simp only [State.settledTotal, State.inFlight] at conserved total ⊢
    rw [spent]
    by_cases same : bill.id = id
    · rw [if_pos same] at inFlight
      rw [if_pos same, saturatingAdd_eq (by omega)]
      omega
    · rw [if_neg same] at inFlight
      rw [if_neg same]
      omega

/-- A settlement replaces the estimate by the provider's count: the counter holds at least the estimate, which is still
    in flight, and has room for the count. -/
theorem balanced_settle (balanced : Balanced id s) {k nowUnix : Nat} {authoritative : Option Nat}
    (fits : Fits id s (.settle k authoritative nowUnix)) (stepped : step s (.settle k authoritative nowUnix) = some t) :
    Balanced id t := by
  have total := fits t stepped
  obtain ⟨bill, opened, rfl⟩ := Option.map_eq_some_iff.mp stepped
  obtain ⟨found, unsettled⟩ := open?_spec opened
  have lifetime : Lifetime id (Stream.settleOne s.budgets bill.id bill.estimate authoritative nowUnix) := by
    cases authoritative with
    | none => exact balanced.lifetime
    | some auth => exact balanced.lifetime.settle bill.estimate auth nowUnix
  have stays : Seen id s.budgets →
      Seen id (Stream.settleOne s.budgets bill.id bill.estimate authoritative nowUnix) := by
    intro seen
    cases authoritative with
    | none => exact seen
    | some auth => exact seen.settle bill.id bill.estimate auth nowUnix
  refine ⟨lifetime, balanced.replaced found (bill.settle authoritative) rfl rfl stays, ?_⟩
  have settled := sum_map_set (Bill.settledFor id) found (bill.settle authoritative)
  have inFlight := sum_map_set (Bill.inFlightFor id) found (bill.settle authoritative)
  have conserved := balanced.conserved
  rw [(Bill.open_for id unsettled).1, (Bill.settle_for id bill authoritative).1] at settled
  rw [(Bill.open_for id unsettled).2, (Bill.settle_for id bill authoritative).2] at inFlight
  simp only [State.settledTotal, State.inFlight] at conserved total ⊢
  by_cases same : bill.id = id
  · obtain ⟨-, entry, seen⟩ := balanced.bills bill (List.mem_of_getElem? found) same
    rw [if_pos same] at settled inFlight
    cases authoritative with
    | none =>
      simp only [Stream.settleOne, Option.getD_none] at settled ⊢
      omega
    | some auth =>
      simp only [Stream.settleOne, Option.getD_some] at settled ⊢
      rw [same, balanced.lifetime.settle_spentOf seen]
      by_cases more : auth ≥ bill.estimate
      · rw [if_pos more, saturatingAdd_eq (by omega)]
        omega
      · rw [if_neg more]
        omega
  · rw [if_neg same] at settled inFlight
    have untouched : (Stream.settleOne s.budgets bill.id bill.estimate authoritative nowUnix).spentOf id =
        s.budgets.spentOf id := by
      cases authoritative with
      | none => rfl
      | some auth => exact NodeBudgets.settle_spentOf_other bill.estimate auth nowUnix (Ne.symm same)
    rw [untouched]
    omega

end

theorem balanced_step (id : CapId) :
    Runs.PreservesWhen step (fun s action => action.IsLifetime id ∧ Fits id s action) (Balanced id) := by
  rintro s action t balanced ⟨lifetime, fits⟩ stepped
  cases action with
  | admitCap stream other terms nowUnix => exact balanced_admit balanced lifetime stepped
  | meter k delta nowUnix => exact balanced_meter balanced fits stepped
  | settle k authoritative nowUnix => exact balanced_settle balanced fits stepped
  | applyShares grants =>
    obtain rfl := Option.some.inj stepped
    obtain ⟨still, same⟩ := balanced.lifetime.applyShares grants
    exact balanced.quiet still same fun seen => seen.applyShares grants
  | setPartitioned on =>
    obtain rfl := Option.some.inj stepped
    exact balanced.quiet balanced.lifetime rfl fun seen => seen
  | spendReport nowUnix =>
    obtain rfl := Option.some.inj stepped
    obtain ⟨still, same⟩ := balanced.lifetime.rollAll nowUnix
    exact balanced.quiet still same fun seen => seen.rollAll nowUnix
  | escalating nowUnix =>
    obtain rfl := Option.some.inj stepped
    obtain ⟨still, same⟩ := balanced.lifetime.rollAll nowUnix
    exact balanced.quiet still same fun seen => seen.rollAll nowUnix

/-- In every state of every interleaving of streams, each of which meters any deltas and settles once, to any count or
    to none: while a lifetime spender's totals fit the counter, it holds what the settled streams came to and the deltas
    of the streams in flight. -/
theorem ledger_conserved (nodeId : String) (id : CapId) (actions : List Action) (s : State)
    (executed : Runs.exec step (.start nodeId) actions = some s) (lifetime : ∀ action ∈ actions, action.IsLifetime id)
    (fits : Runs.Along step (Fits id) (.start nodeId) actions) :
    s.budgets.spentOf id = s.settledTotal id + s.inFlight id := by
  have initial : Balanced id (.start nodeId) := by
    refine ⟨NodeBudgets.new_lifetime nodeId id, fun bill inside => (nomatch inside), ?_⟩
    simp [State.start, State.settledTotal, State.inFlight, NodeBudgets.new, NodeBudgets.spentOf]
  have along := Runs.along_and (Runs.along_of_forall fun _ => lifetime) fits
  exact (Runs.exec_preserves_along (balanced_step id) initial along executed).conserved

/-- Two streams of one spender: the first meters 40 and 20 and settles to 50 while the second, which has metered 30, is
    in flight. -/
theorem two_streams_conserved :
    let team : CapId := ⟨"team", "ml"⟩
    let terms : CapTerms := ⟨1000, none, 4 / 5⟩
    let actions : List Action := [.admitCap 0 team terms 0, .meter 0 40 0, .admitCap 1 team terms 0, .meter 1 30 1,
      .meter 0 20 1, .spendReport 2, .settle 0 (some 50) 3]
    ((Runs.exec step (.start "n1") actions).getD (.start "n1")).budgets.spentOf team = 50 + 30 := by
  intro team terms actions
  have lifetime : ∀ action ∈ actions, action.IsLifetime team := by
    intro action inside
    simp only [actions, List.mem_cons, List.not_mem_nil, or_false] at inside
    rcases inside with rfl | rfl | rfl | rfl | rfl | rfl | rfl <;> first | exact fun _ => rfl | trivial
  have executed := Runs.exec_eq_getD step (.start "n1") actions (by decide +kernel) (.start "n1")
  have conserved := ledger_conserved "n1" team actions _ executed lifetime (by decide +kernel)
  have totals : ((Runs.exec step (.start "n1") actions).getD (.start "n1")).settledTotal team = 50 ∧
      ((Runs.exec step (.start "n1") actions).getD (.start "n1")).inFlight team = 30 := by decide +kernel
  rw [conserved, totals.1, totals.2]

end Conservation

end SmallGateway
