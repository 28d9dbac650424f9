import SmallGateway.StreamCharges

/-!
What a stream bills a spender, by its calls on the ledger: the tokens each charge adds and what the settlement
corrects them by. The estimate that is settled counts all output that was read, so the bill is the provider's count
exactly when the charges covered the whole estimate for the spender (`billed_exactly_iff_covered`), whatever the
spender's terms are and whatever other requests do to its counter.
-/

namespace SmallGateway.Stream

/-- A charge the stream is about to make: for whom, and who is charged after. -/
structure NextCharge where
  delta : Nat
  id : CapId
  terms : CapTerms
  behind : List (CapId × CapTerms)

def Phase.nextCharge : Phase → Option NextCharge
  | .charging delta ((id, terms) :: behind) _ => some ⟨delta, id, terms, behind⟩
  | _ => none

/-- A settlement the stream is about to make. -/
structure NextSettlement where
  estimated : Nat
  auth : Nat
  id : CapId

def Phase.nextSettlement : Phase → Option NextSettlement
  | .settling estimated (some auth) ((id, _) :: _) => some ⟨estimated, auth, id⟩
  | _ => none

/-- The tokens a step charges to a spender. -/
def metered (id : CapId) (s : State) : Action → State → Nat
  | .charge _, _ =>
    match s.phase.nextCharge with
    | some next => if next.id = id then next.delta else 0
    | none => 0
  | _, _ => 0

/-- The tokens a run charges to a spender. -/
def chargedTo (id : CapId) (s : State) (actions : List Action) : Nat :=
  (Runs.trace step (metered id) s actions).sum

/-- What a step of the stream adds to a spender's bill. -/
def billed (id : CapId) (s : State) : Action → State → Int
  | .charge _, _ =>
    match s.phase with
    | .charging delta ((head, _) :: _) _ => if head = id then delta else 0
    | .terminal charged ((head, _) :: _) => if head = id then charged else 0
    | _ => 0
  | .settle _, _ =>
    match s.phase.nextSettlement with
    | some next => if next.id = id then (next.auth : Int) - next.estimated else 0
    | none => 0
  | _, _ => 0

/-- What a run of the stream leaves on a spender's bill. -/
def netSpend (id : CapId) (s : State) (actions : List Action) : Int :=
  (Runs.trace step (billed id) s actions).sum

/-- The step leaves no output of the stream uncharged to the spender. A chunk does when it only tears the
    session down, when it brings no new tokens, or when nothing cuts the stream before its charges; a charge
    does when the spender is not waiting behind one whose bound the charge passes. -/
def BillsOutput (id : CapId) (s : State) : Action → Prop
  | .chunk events endOfStream =>
    (s.ctx.cut && !endOfStream) = true ∨ s.ctx.delta events = 0 ∨
      (s.ctx.cut = false ∧ ¬ s.ctx.ModuleCuts events)
  | .charge nowUnix =>
    ∀ next ∈ s.phase.nextCharge, id ∈ next.behind.map (·.1) →
      ¬ s.budgets.PassesBound next.id next.terms next.delta nowUnix
  | _ => True

instance (ctx : ReqCtx) : DecidablePred ctx.ModuleCuts := fun events =>
  inferInstanceAs (Decidable (_ ∧ ∃ event ∈ events, _))

instance (id : CapId) (s : State) : DecidablePred (BillsOutput id s)
  | .chunk _ _ => inferInstanceAs (Decidable (_ ∨ _ ∨ (_ ∧ ¬ _)))
  | .charge _ => inferInstanceAs (Decidable (∀ next ∈ s.phase.nextCharge, _))
  | .finish _ _ | .settle _ | .other _ => isTrue trivial

/-- The part of the current delta that the spender still waits for. -/
private def Phase.outstanding (id : CapId) : Phase → Nat
  | .charging delta pending _ => if id ∈ pending.map (·.1) then delta else 0
  | _ => 0

/-- What the settlement has changed the spender's counter by so far. -/
private def Phase.reconciled (id : CapId) : Phase → Int
  | .settling estimated (some auth) pending =>
    if id ∈ pending.map (·.1) then 0 else (auth : Int) - estimated
  | _ => 0

private theorem afterCharges_open (id : CapId) (endOfStream : Bool) :
    (afterCharges endOfStream).outstanding id = 0 ∧ (afterCharges endOfStream).reconciled id = 0 ∧
      ∀ delta pending final, afterCharges endOfStream ≠ .charging delta pending final := by
  cases endOfStream
  · exact ⟨rfl, rfl, fun _ _ _ found => nomatch found⟩
  · exact ⟨rfl, rfl, fun _ _ _ found => nomatch found⟩

private theorem chargePhase_open (id : CapId) (delta : Nat) (pending : List (CapId × CapTerms))
    (endOfStream : Bool) :
    (chargePhase delta pending endOfStream).outstanding id =
        (if id ∈ pending.map (·.1) then delta else 0) ∧
      (chargePhase delta pending endOfStream).reconciled id = 0 := by
  by_cases nothing : pending = []
  · obtain ⟨outstanding, reconciled, -⟩ := afterCharges_open id endOfStream
    simp [chargePhase, nothing, outstanding, reconciled]
  · simp [chargePhase, nothing, Phase.outstanding, Phase.reconciled]

/-- The bill of a spender while the stream runs: what the steps so far have charged to it and added to its bill, and
    whether one of them has missed output. -/
private structure Bill (bound : CapList) (id : CapId) (s : State) (yielded : List (Nat × Int))
    (missed : Prop) : Prop where
  coherent : Coherent bound s
  change : (yielded.map (·.2)).sum = ((yielded.map (·.1)).sum : Nat) + s.phase.reconciled id
  covered : ¬ missed →
    (yielded.map (·.1)).sum + s.phase.outstanding id = s.ctx.lastMeteredEst ∧
      s.ctx.lastMeteredEst = s.ctx.meter.estimatedOutputTokens
  short : missed → s.ctx.cut = true ∧
    (∀ delta pending endOfStream, s.phase ≠ .charging delta pending endOfStream) ∧
      (yielded.map (·.1)).sum < s.ctx.meter.estimatedOutputTokens

/-- The same state of the stream, after a step that concerns neither the spender nor the output. -/
private theorem Bill.unmoved {bound : CapList} {id : CapId} {s t : State} {yielded : List (Nat × Int)}
    {missed covers : Prop} (bill : Bill bound id s yielded missed) (coherent : Coherent bound t)
    (covering : covers) (outstanding : t.phase.outstanding id = s.phase.outstanding id)
    (reconciled : t.phase.reconciled id = s.phase.reconciled id)
    (waiting : ∀ delta pending endOfStream, t.phase = .charging delta pending endOfStream →
      s.phase = .charging delta pending endOfStream)
    (cut : t.ctx.cut = s.ctx.cut) (last : t.ctx.lastMeteredEst = s.ctx.lastMeteredEst)
    (meter : t.ctx.meter = s.ctx.meter) :
    Bill bound id t (yielded ++ [(0, 0)]) (missed ∨ ¬ covers) where
  coherent := coherent
  change := by simpa [reconciled] using bill.change
  covered := by
    intro unmissed
    have before := bill.covered fun was => unmissed (Or.inl was)
    simpa [outstanding, last, meter] using before
  short := by
    intro now
    have was : missed := now.resolve_right (not_not.mpr covering)
    obtain ⟨cutBefore, idle, less⟩ := bill.short was
    refine ⟨cut.trans cutBefore, fun delta pending endOfStream found => ?_, ?_⟩
    · exact idle delta pending endOfStream (waiting delta pending endOfStream found)
    · simpa [meter] using less

section

variable {bound : CapList} {id : CapId} {s : State} {yielded : List (Nat × Int)} {missed : Prop}

/-- A chunk that is fed and not charged misses output exactly when it brings new tokens. -/
private theorem Bill.uncharged (bill : Bill bound id s yielded missed)
    {events : List (Event × Option String)} {endOfStream : Bool} (idle : s.phase = .idle)
    (fed : (s.ctx.cut && !endOfStream) = false) (cut : s.ctx.cut = true ∨ s.ctx.ModuleCuts events) :
    let t : State := { s with
      ctx := { s.ctx with meter := s.ctx.fed events, cut := true }
      phase := afterCharges endOfStream }
    Coherent bound t →
      Bill bound id t (yielded ++ [(0, 0)]) (missed ∨ ¬ BillsOutput id s (.chunk events endOfStream)) := by
  intro t coherent
  obtain ⟨outstanding, reconciled, notCharging⟩ := afterCharges_open id endOfStream
  have covers : BillsOutput id s (.chunk events endOfStream) ↔ s.ctx.delta events = 0 := by
    simp only [BillsOutput, fed, Bool.false_eq_true, false_or, or_iff_left_iff_imp]
    rintro ⟨uncut, allowed⟩
    rcases cut with before | now
    · rw [uncut] at before
      cases before
    · exact absurd now allowed
  have grows : s.ctx.meter.estimatedOutputTokens ≤ (s.ctx.fed events).estimatedOutputTokens :=
    estimate_mono _ _
  have delta : s.ctx.delta events =
      (s.ctx.fed events).estimatedOutputTokens - s.ctx.lastMeteredEst := rfl
  have beforeIdle : s.phase.outstanding id = 0 ∧ s.phase.reconciled id = 0 := by
    rw [idle]
    exact ⟨rfl, rfl⟩
  have change := bill.change
  rw [beforeIdle.2] at change
  refine ⟨coherent, ?_, fun unmissed => ?_, fun misses => ⟨rfl, notCharging, ?_⟩⟩
  · simpa [t, reconciled] using change
  · obtain ⟨before, covering⟩ := not_or.mp unmissed
    have noTokens := covers.mp (not_not.mp covering)
    obtain ⟨charged, known⟩ := bill.covered before
    rw [beforeIdle.1] at charged
    simp only [t, outstanding, List.map_append, List.map_cons, List.map_nil, List.sum_append,
      List.sum_cons, List.sum_nil]
    omega
  · simp only [t, List.map_append, List.map_cons, List.map_nil, List.sum_append, List.sum_cons,
      List.sum_nil]
    by_cases was : missed
    · have less := (bill.short was).2.2
      omega
    · have newTokens : s.ctx.delta events ≠ 0 :=
        fun none => misses.resolve_left was (covers.mpr none)
      obtain ⟨charged, known⟩ := bill.covered was
      rw [beforeIdle.1] at charged
      omega

/-- A chunk whose new tokens are going to be charged. -/
private theorem Bill.charged (bill : Bill bound id s yielded missed)
    (listed : id ∈ bound.caps.map (·.1)) {events : List (Event × Option String)} {endOfStream : Bool}
    (idle : s.phase = .idle) (uncut : s.ctx.cut = false) (allowed : ¬ s.ctx.ModuleCuts events) :
    let t : State := { s with
      ctx := { s.ctx with
        meter := s.ctx.fed events
        lastMeteredEst := (s.ctx.fed events).estimatedOutputTokens }
      phase := if s.ctx.delta events = 0 then afterCharges endOfStream
        else chargePhase (s.ctx.delta events) s.ctx.caps.caps endOfStream }
    Coherent bound t →
      Bill bound id t (yielded ++ [(0, 0)]) (missed ∨ ¬ BillsOutput id s (.chunk events endOfStream)) := by
  intro t coherent
  have covers : BillsOutput id s (.chunk events endOfStream) := Or.inr (Or.inr ⟨uncut, allowed⟩)
  have unmissed : ¬ missed := fun was => by
    rw [(bill.short was).1] at uncut
    cases uncut
  have grows : s.ctx.meter.estimatedOutputTokens ≤ (s.ctx.fed events).estimatedOutputTokens :=
    estimate_mono _ _
  have delta : s.ctx.delta events =
      (s.ctx.fed events).estimatedOutputTokens - s.ctx.lastMeteredEst := rfl
  have open_ : t.phase.outstanding id = s.ctx.delta events ∧ t.phase.reconciled id = 0 := by
    obtain ⟨outstanding, reconciled, -⟩ := afterCharges_open id endOfStream
    obtain ⟨waiting, unreconciled⟩ := chargePhase_open id (s.ctx.delta events) s.ctx.caps.caps endOfStream
    rw [bill.coherent.caps, if_pos listed] at waiting
    by_cases none : s.ctx.delta events = 0
    · simp [t, none, outstanding, reconciled]
    · simp only [t, none, if_false]
      rw [bill.coherent.caps] at unreconciled ⊢
      exact ⟨waiting, unreconciled⟩
  have change := bill.change
  rw [idle] at change
  obtain ⟨charged, known⟩ := bill.covered unmissed
  rw [idle] at charged
  refine ⟨coherent, ?_, fun _ => ⟨?_, rfl⟩, fun misses => ?_⟩
  · rw [open_.2]
    simpa [Phase.reconciled] using change
  · rw [open_.1]
    simp only [Phase.outstanding, Nat.add_zero] at charged
    simp only [t, List.map_append, List.map_cons, List.map_nil, List.sum_append, List.sum_cons,
      List.sum_nil]
    omega
  · exact (misses.elim unmissed fun uncovered => uncovered covers).elim

/-- Before a charge nothing has been missed, and the spender waits for the delta when it is listed still. -/
private theorem Bill.beforeCharge (bill : Bill bound id s yielded missed) {head : CapId}
    {terms : CapTerms} {rest : List (CapId × CapTerms)} {delta : Nat} {endOfStream : Bool}
    (charging : s.phase = .charging delta ((head, terms) :: rest) endOfStream) :
    ¬ missed ∧ (yielded.map (·.2)).sum = ((yielded.map (·.1)).sum : Nat) ∧
      (yielded.map (·.1)).sum + (if head = id ∨ id ∈ rest.map (·.1) then delta else 0) =
        s.ctx.lastMeteredEst ∧
      s.ctx.lastMeteredEst = s.ctx.meter.estimatedOutputTokens := by
  have unmissed : ¬ missed := fun was => (bill.short was).2.1 _ _ _ charging
  have change := bill.change
  obtain ⟨charged, known⟩ := bill.covered unmissed
  rw [charging] at charged change
  have waits : id ∈ ((head, terms) :: rest).map (·.1) ↔ head = id ∨ id ∈ rest.map (·.1) := by
    rw [List.map_cons, List.mem_cons]
    exact or_congr_left eq_comm
  refine ⟨unmissed, by simpa [Phase.reconciled] using change, ?_, known⟩
  simpa only [Phase.outstanding, waits] using charged

/-- A charge takes its delta from the spender it is for. -/
private theorem charge_billed (id : CapId) {head : CapId} {terms : CapTerms} {rest : List (CapId × CapTerms)}
    {delta : Nat} {endOfStream : Bool} (charging : s.phase = .charging delta ((head, terms) :: rest) endOfStream)
    (nowUnix : Nat) (t : State) :
    metered id s (.charge nowUnix) t = (if head = id then delta else 0) ∧
      billed id s (.charge nowUnix) t = ((if head = id then delta else 0 : Nat) : Int) := by
  refine ⟨by simp only [metered, charging, Phase.nextCharge], ?_⟩
  simp only [billed, charging]
  by_cases mine : head = id
  · simp [mine]
  · simp [mine]

/-- A charge passes its spender's bound and cuts the stream: those behind it miss the delta. -/
private theorem Bill.tripped (bill : Bill bound id s yielded missed)
    {head : CapId} {terms : CapTerms} {rest : List (CapId × CapTerms)} {delta nowUnix : Nat} {endOfStream : Bool}
    (charging : s.phase = .charging delta ((head, terms) :: rest) endOfStream)
    (outcome : (s.budgets.meter head (some terms) delta nowUnix).1.isCut = true) :
    let t : State := ⟨(s.budgets.meter head (some terms) delta nowUnix).2.2, { s.ctx with cut := true },
      afterCharges endOfStream⟩
    Coherent bound t →
      Bill bound id t
        (yielded ++ [(metered id s (.charge nowUnix) t, billed id s (.charge nowUnix) t)])
        (missed ∨ ¬ BillsOutput id s (.charge nowUnix)) := by
  intro t coherent
  obtain ⟨takes, changes⟩ := charge_billed id charging nowUnix t
  obtain ⟨unmissed, change, charged, known⟩ := bill.beforeCharge charging
  obtain ⟨outstanding, reconciled, notCharging⟩ := afterCharges_open id endOfStream
  have behind : head ∉ rest.map (·.1) := bill.coherent.pending_distinct (by rw [charging]; rfl)
  have owed : delta ≠ 0 := bill.coherent.owed _ _ _ charging
  have passes := (NodeBudgets.meter_isCut s.budgets head terms delta nowUnix).mp outcome
  have covers : BillsOutput id s (.charge nowUnix) ↔ id ∉ rest.map (·.1) := by
    constructor
    · intro covering waiting
      exact covering ⟨delta, head, terms, rest⟩ (by rw [charging]; rfl) waiting passes
    · intro absent next found waiting
      rw [charging] at found
      obtain rfl := Option.some.inj found
      exact absurd waiting absent
  rw [takes, changes]
  refine ⟨coherent, ?_, fun clean => ⟨?_, known⟩, fun misses => ⟨rfl, notCharging, ?_⟩⟩
  · simp only [t, reconciled, List.map_append, List.map_cons, List.map_nil, List.sum_append,
      List.sum_cons, List.sum_nil]
    omega
  · have absent : id ∉ rest.map (·.1) := covers.mp (not_not.mp (not_or.mp clean).2)
    simp only [absent, or_false] at charged
    simp only [t, outstanding, List.map_append, List.map_cons, List.map_nil, List.sum_append,
      List.sum_cons, List.sum_nil]
    omega
  · have waiting : id ∈ rest.map (·.1) := by
      by_contra absent
      exact misses.elim unmissed fun uncovered => uncovered (covers.mpr absent)
    have other : head ≠ id := by
      rintro rfl
      exact behind waiting
    simp only [waiting, or_true, if_true] at charged
    simp only [t, other, if_false, List.map_append, List.map_cons, List.map_nil, List.sum_append,
      List.sum_cons, List.sum_nil]
    omega

/-- A charge stays within its spender's bound, and the next one follows. -/
private theorem Bill.paid (bill : Bill bound id s yielded missed)
    {head : CapId} {terms : CapTerms} {rest : List (CapId × CapTerms)} {delta nowUnix : Nat} {endOfStream : Bool}
    (charging : s.phase = .charging delta ((head, terms) :: rest) endOfStream)
    (outcome : (s.budgets.meter head (some terms) delta nowUnix).1.isCut = false) :
    let t : State := { s with
      budgets := (s.budgets.meter head (some terms) delta nowUnix).2.2
      phase := chargePhase delta rest endOfStream }
    Coherent bound t →
      Bill bound id t
        (yielded ++ [(metered id s (.charge nowUnix) t, billed id s (.charge nowUnix) t)])
        (missed ∨ ¬ BillsOutput id s (.charge nowUnix)) := by
  intro t coherent
  obtain ⟨takes, changes⟩ := charge_billed id charging nowUnix t
  obtain ⟨unmissed, change, charged, known⟩ := bill.beforeCharge charging
  obtain ⟨outstanding, reconciled⟩ := chargePhase_open id delta rest endOfStream
  have behind : head ∉ rest.map (·.1) := bill.coherent.pending_distinct (by rw [charging]; rfl)
  have covers : BillsOutput id s (.charge nowUnix) := by
    intro next found waiting
    rw [charging] at found
    obtain rfl := Option.some.inj found
    exact (NodeBudgets.meter_isCut s.budgets head terms delta nowUnix).not.mp (by simp [outcome])
  rw [takes, changes]
  refine ⟨coherent, ?_, fun _ => ⟨?_, known⟩, fun misses => ?_⟩
  · simp only [t, reconciled, List.map_append, List.map_cons, List.map_nil, List.sum_append,
      List.sum_cons, List.sum_nil]
    omega
  · simp only [t, outstanding, List.map_append, List.map_cons, List.map_nil, List.sum_append,
      List.sum_cons, List.sum_nil]
    by_cases mine : head = id
    · subst mine
      simp only [behind, true_or, if_true, if_false] at charged ⊢
      omega
    · simp only [mine, false_or, if_false] at charged ⊢
      omega
  · exact (misses.elim unmissed fun uncovered => uncovered covers).elim

/-- Settling one spender replaces what was charged to it by the provider's count. -/
private theorem Bill.reconciled (bill : Bill bound id s yielded missed)
    {estimated : Nat} {authoritative : Option Nat} {head : CapId}
    {terms : CapTerms} {rest : List (CapId × CapTerms)} {nowUnix : Nat}
    (settling : s.phase = .settling estimated authoritative ((head, terms) :: rest)) :
    let t : State := { s with
      budgets := settleOne s.budgets head estimated authoritative nowUnix
      phase := .settling estimated authoritative rest }
    Coherent bound t →
      Bill bound id t (yielded ++ [(0, billed id s (.settle nowUnix) t)])
        (missed ∨ ¬ BillsOutput id s (.settle nowUnix)) := by
  intro t coherent
  have behind : head ∉ rest.map (·.1) := bill.coherent.pending_distinct (by rw [settling]; rfl)
  have change := bill.change
  rw [settling] at change
  have moved : billed id s (.settle nowUnix) t = t.phase.reconciled id - s.phase.reconciled id := by
    rw [settling]
    cases authoritative with
    | none => simp [billed, settling, Phase.nextSettlement, t, Phase.reconciled]
    | some auth =>
      simp only [billed, settling, Phase.nextSettlement, t, Phase.reconciled, List.map_cons, List.mem_cons]
      by_cases mine : head = id
      · subst mine
        simp only [behind, or_false, if_true, if_false]
        omega
      · have other : id ≠ head := Ne.symm mine
        simp only [mine, other, if_false, false_or]
        omega
  refine ⟨coherent, ?_, fun clean => ?_, fun misses => ?_⟩
  · rw [moved, settling]
    simp only [List.map_append, List.map_cons, List.map_nil, List.sum_append, List.sum_cons,
      List.sum_nil]
    omega
  · have before := bill.covered (not_or.mp clean).1
    rw [settling] at before
    simpa [t, Phase.outstanding] using before
  · have was : missed := misses.resolve_right (not_not.mpr trivial)
    obtain ⟨cut, -, less⟩ := bill.short was
    exact ⟨cut, fun _ _ _ found => (nomatch found), by simpa [t] using less⟩

end

/-- The bill is kept by every step. -/
private theorem bill_step {bound : CapList} {id : CapId} (listed : id ∈ bound.caps.map (·.1)) :
    ∀ s action t yielded missed, Bill bound id s yielded missed → True → step s action = some t →
      Bill bound id t (yielded ++ [(metered id s action t, billed id s action t)])
        (missed ∨ ¬ BillsOutput id s action) := by
  intro s action t yielded missed bill _ made
  have capped : bound.caps ≠ [] := by
    rintro none
    simp [none] at listed
  have stepped := step_stepped capped bill.coherent made
  have coherent := stepped.coherent bill.coherent
  cases stepped with
  | @torn events idle cut =>
    exact bill.unmoved coherent (Or.inl (by simp [cut])) rfl rfl (fun _ _ _ same => same) rfl rfl rfl
  | @uncharged events endOfStream idle fed cut => exact bill.uncharged idle fed cut coherent
  | @charged events endOfStream idle uncut allowed => exact bill.charged listed idle uncut allowed coherent
  | tripped charging outcome => exact bill.tripped charging outcome coherent
  | paid charging outcome => exact bill.paid charging outcome coherent
  | @finished abort error disposition waiting =>
    have closed : s.phase.outstanding id = 0 ∧ s.phase.reconciled id = 0 := by
      rcases waiting with idle | ended
      · rw [idle]
        exact ⟨rfl, rfl⟩
      · rw [ended]
        exact ⟨rfl, rfl⟩
    refine bill.unmoved coherent trivial closed.1.symm ?_ (fun _ _ _ found => nomatch found) rfl rfl rfl
    rw [closed.2, bill.coherent.caps]
    cases s.ctx.meter.authoritativeOutput with
    | none => rfl
    | some auth => simp [Phase.reconciled, if_pos listed]
  | reconciled settling => exact bill.reconciled settling coherent
  | other called => exact bill.unmoved coherent trivial rfl rfl (fun _ _ _ same => same) rfl rfl rfl

/-- The bill at the end of a run. -/
private theorem final_bill {bound : CapList} {id : CapId} {budgets : NodeBudgets} {wasmPerEvent : Bool}
    {actions : List Action} {t : State} (listed : id ∈ bound.caps.map (·.1))
    (executed : Runs.exec step (.start budgets bound wasmPerEvent) actions = some t) :
    ∃ yielded,
      Bill bound id t yielded (¬ Runs.Along step (BillsOutput id) (.start budgets bound wasmPerEvent) actions) ∧
      (yielded.map (·.1)).sum = chargedTo id (.start budgets bound wasmPerEvent) actions ∧
      (yielded.map (·.2)).sum = netSpend id (.start budgets bound wasmPerEvent) actions := by
  have initial : Bill bound id (.start budgets bound wasmPerEvent) [] False := {
    coherent := start_coherent budgets bound wasmPerEvent
    change := rfl
    covered := fun _ => ⟨rfl, show 0 = tokensOfChars 0 by decide⟩
    short := False.elim }
  have final := Runs.exec_accounts (bill_step listed) initial (Runs.along_of_forall fun _ _ _ => trivial) executed
  rw [List.nil_append, false_or] at final
  refine ⟨_, final, ?_, ?_⟩
  · rw [Runs.trace_map]
    rfl
  · rw [Runs.trace_map]
    rfl

/-- What a settled stream has charged to a spender is at most the estimate, and is the estimate exactly when every
    step of the run billed the spender the output it brought. -/
theorem billed_exactly_iff_covered {bound : CapList} {id : CapId} {budgets : NodeBudgets} {wasmPerEvent : Bool}
    {actions : List Action} {t : State} {estimated : Nat} {authoritative : Option Nat}
    (listed : id ∈ bound.caps.map (·.1))
    (executed : Runs.exec step (.start budgets bound wasmPerEvent) actions = some t)
    (settled : t.phase = .settling estimated authoritative []) :
    chargedTo id (.start budgets bound wasmPerEvent) actions ≤ estimated ∧
      (chargedTo id (.start budgets bound wasmPerEvent) actions = estimated ↔
        Runs.Along step (BillsOutput id) (.start budgets bound wasmPerEvent) actions) := by
  obtain ⟨yielded, bill, charges, -⟩ := final_bill listed executed
  obtain ⟨known, -⟩ := bill.coherent.settling _ _ _ settled
  by_cases along : Runs.Along step (BillsOutput id) (.start budgets bound wasmPerEvent) actions
  · obtain ⟨sum, last⟩ := bill.covered (not_not.mpr along)
    rw [charges, settled, last, ← known] at sum
    exact ⟨sum.le, fun _ => along, fun _ => sum⟩
  · have less := (bill.short along).2.2
    rw [charges, ← known] at less
    exact ⟨less.le, fun all => absurd all less.ne, fun now => absurd now along⟩

/-- A settled stream with a count has billed each spender what it charged, corrected by what the count differs from
    the estimate by. -/
theorem netSpend_settled {bound : CapList} {id : CapId} {budgets : NodeBudgets} {wasmPerEvent : Bool}
    {actions : List Action} {t : State} {estimated auth : Nat} (listed : id ∈ bound.caps.map (·.1))
    (executed : Runs.exec step (.start budgets bound wasmPerEvent) actions = some t)
    (settled : t.phase = .settling estimated (some auth) []) :
    netSpend id (.start budgets bound wasmPerEvent) actions =
      chargedTo id (.start budgets bound wasmPerEvent) actions + ((auth : Int) - estimated) := by
  obtain ⟨yielded, bill, charges, bills⟩ := final_bill listed executed
  have sum := bill.change
  rwa [charges, bills, settled] at sum

end SmallGateway.Stream
