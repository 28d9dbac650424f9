import SmallGateway.Adapters
import SmallGateway.StreamExactness

/-!
The billing floor of a stream, however it ends. Settlement leaves a spender with at least what it had and what
the stream charged to it exactly when the output count that the provider last reported, if it reported one, is
no less than the estimate of the output that was read (`floor_iff_reported_not_below_estimate`). A usage frame
that opens the stream reports a count of its own, and it is that count the settlement goes down to.
-/

namespace SmallGateway.Stream

/-- The events a step feeds to the meter. -/
def observed (s : State) : Action → State → List Event
  | .chunk events endOfStream, _ =>
    if s.ctx.cut && !endOfStream then [] else events.map (·.1)
  | _, _ => []

/-- The events a run feeds to the meter, in order. -/
def observedOf (s : State) (actions : List Action) : List Event :=
  (Runs.trace step observed s actions).flatten

/-- A spender's counter, given what it stood at when the settlement began. -/
private def Phase.settledFrom (id : CapId) (spent : Nat) : Phase → Nat
  | .settling estimated (some auth) pending =>
    if id ∈ pending.map (·.1) then spent
    else if auth ≥ estimated then saturatingAdd spent (auth - estimated)
    else spent - (estimated - auth)
  | _ => spent

/-- A phase before the settlement leaves the counter as it is. -/
private theorem settledFrom_open (id : CapId) (spent : Nat) {phase : Phase}
    (unsettled : ∀ estimated authoritative pending, phase ≠ .settling estimated authoritative pending) :
    phase.settledFrom id spent = spent := by
  cases phase with
  | settling estimated authoritative pending => exact absurd rfl (unsettled _ _ _)
  | idle => rfl
  | charging delta pending endOfStream => rfl
  | ended => rfl
  | terminal charged pending => rfl

private theorem afterCharges_unsettled (endOfStream : Bool) (estimated : Nat) (authoritative : Option Nat)
    (pending : List (CapId × CapTerms)) :
    afterCharges endOfStream ≠ .settling estimated authoritative pending := by
  cases endOfStream
  · exact nofun
  · exact nofun

private theorem chargePhase_unsettled (delta : Nat) (left : List (CapId × CapTerms)) (endOfStream : Bool)
    (estimated : Nat) (authoritative : Option Nat) (pending : List (CapId × CapTerms)) :
    chargePhase delta left endOfStream ≠ .settling estimated authoritative pending := by
  unfold chargePhase
  split
  · exact afterCharges_unsettled endOfStream estimated authoritative pending
  · exact nofun

/-- What the steps of a lone stream have done so far: the meter has read what they fed to it, and the counter
    of the spender stands where their charges and its settlement put it. -/
private structure FloorAccount (bound : CapList) (id : CapId) (before : Nat) (s : State)
    (yielded : List (Nat × List Event)) : Prop where
  coherent : Coherent bound s
  ready : Ready bound s.budgets
  meter : s.ctx.meter = (yielded.map (·.2)).flatten.foldl Meter.observe .new
  spent : s.spentOf id = s.phase.settledFrom id (saturatingAdd before (yielded.map (·.1)).sum)

section

variable {bound : CapList} {id : CapId} {before : Nat} {s : State} {yielded : List (Nat × List Event)}

/-- A step that makes no call on the ledger, between the phases before the settlement. -/
private theorem FloorAccount.unmoved (account : FloorAccount bound id before s yielded) {t : State}
    {events : List Event} (coherent : Coherent bound t) (same : t.budgets = s.budgets)
    (meter : t.ctx.meter = events.foldl Meter.observe s.ctx.meter)
    (open_ : ∀ spent, s.phase.settledFrom id spent = spent)
    (stillOpen : ∀ spent, t.phase.settledFrom id spent = spent) :
    FloorAccount bound id before t (yielded ++ [(0, events)]) where
  coherent := coherent
  ready := same ▸ account.ready
  meter := by
    rw [meter, account.meter]
    simp
  spent := by
    have spent := account.spent
    rw [open_] at spent
    rw [stillOpen]
    simpa [State.spentOf, same] using spent

/-- A charge adds its delta to the spender it is for. -/
private theorem FloorAccount.charge (account : FloorAccount bound id before s yielded)
    (listed : id ∈ bound.caps.map (·.1)) {head : CapId} {terms : CapTerms}
    {rest : List (CapId × CapTerms)} {delta nowUnix : Nat} {endOfStream : Bool} {t : State}
    (charging : s.phase = .charging delta ((head, terms) :: rest) endOfStream)
    (coherent : Coherent bound t) (ready : Ready bound t.budgets)
    (paid : t.budgets = (s.budgets.meter head (some terms) delta nowUnix).2.2)
    (meter : t.ctx.meter = s.ctx.meter)
    (unsettled : ∀ estimated authoritative pending, t.phase ≠ .settling estimated authoritative pending) :
    FloorAccount bound id before t (yielded ++ [(metered id s (.charge nowUnix) t, [])]) where
  coherent := coherent
  ready := ready
  meter := by
    rw [meter, account.meter]
    simp
  spent := by
    have left := account.coherent.pending
    rw [charging] at left
    have after := account.ready.lifetime.charge_spentOf (left.subset List.mem_cons_self) listed delta nowUnix
    have spent := account.spent
    rw [charging, settledFrom_open id _ (by simp), State.spentOf] at spent
    rw [settledFrom_open id _ unsettled, State.spentOf, paid, after]
    simp only [metered, charging, Phase.nextCharge, List.map_append, List.map_cons, List.map_nil,
      List.sum_append, List.sum_cons, List.sum_nil, Nat.add_zero, ← saturatingAdd_saturatingAdd, spent]
    by_cases mine : head = id
    · simp [mine]
    · simp only [mine, if_false]
      rw [saturatingAdd_saturatingAdd, Nat.add_zero]

/-- Settling a spender moves its counter once. -/
private theorem FloorAccount.reconciled (account : FloorAccount bound id before s yielded)
    (listed : id ∈ bound.caps.map (·.1)) {estimated : Nat} {authoritative : Option Nat} {head : CapId}
    {terms : CapTerms} {rest : List (CapId × CapTerms)} {nowUnix : Nat}
    (settling : s.phase = .settling estimated authoritative ((head, terms) :: rest)) :
    let t : State := { s with
      budgets := settleOne s.budgets head estimated authoritative nowUnix
      phase := .settling estimated authoritative rest }
    Coherent bound t → Ready bound t.budgets → FloorAccount bound id before t (yielded ++ [(0, [])]) := by
  intro t coherent ready
  have pending : s.phase.pending = (head, terms) :: rest := by
    rw [settling]
    rfl
  have behind := account.coherent.pending_distinct pending
  have spent := account.spent
  rw [settling, State.spentOf] at spent
  refine ⟨coherent, ready, by simpa [t] using account.meter, ?_⟩
  cases authoritative with
  | none => simpa [t, State.spentOf, settleOne, Phase.settledFrom] using spent
  | some auth =>
    have after := account.ready.settle_spentOf listed head estimated auth nowUnix
    simp only [Phase.settledFrom, List.map_cons, List.mem_cons] at spent
    simp only [t, State.spentOf, after, Phase.settledFrom, List.map_append, List.map_cons, List.map_nil,
      List.sum_append, List.sum_cons, List.sum_nil, Nat.add_zero]
    by_cases mine : head = id
    · subst mine
      simp only [true_or, if_true] at spent
      simp only [behind, if_true, if_false, spent]
    · have other : id ≠ head := Ne.symm mine
      simp only [other, false_or] at spent
      simp only [mine, if_false]
      exact spent

end

/-- The account is kept by every step of a lone stream. -/
private theorem floorAccount_step {bound : CapList} {id : CapId} (listed : id ∈ bound.caps.map (·.1))
    (before : Nat) :
    ∀ s action t yielded, FloorAccount bound id before s yielded →
      action.isOther = false → step s action = some t →
        FloorAccount bound id before t (yielded ++ [(metered id s action t, observed s action t)]) := by
  intro s action t yielded account alone made
  have capped : bound.caps ≠ [] := by
    rintro none
    simp [none] at listed
  have others : OthersLifetime bound action := by
    cases action with
    | other op => cases alone
    | chunk events endOfStream => trivial
    | charge nowUnix => trivial
    | finish events abort => trivial
    | settle nowUnix => trivial
  have stepped := step_stepped capped account.coherent made
  have coherent := stepped.coherent account.coherent
  have ready := account.ready.step account.coherent others stepped
  have openAt : ∀ {phase : Phase}, s.phase = phase →
      (∀ estimated authoritative pending, phase ≠ .settling estimated authoritative pending) →
        ∀ spent, s.phase.settledFrom id spent = spent := by
    rintro phase rfl unsettled spent
    exact settledFrom_open id spent unsettled
  cases stepped with
  | @torn events idle cut =>
    have nothing : observed s (.chunk events false) s = [] := by simp [observed, cut]
    rw [nothing]
    exact account.unmoved coherent rfl rfl (openAt idle (by simp)) (openAt idle (by simp))
  | @uncharged events endOfStream idle fed cut =>
    have reads : ∀ t, observed s (.chunk events endOfStream) t = events.map (·.1) := by
      intro t
      simp [observed, fed]
    rw [reads]
    exact account.unmoved coherent rfl rfl (openAt idle (by simp))
      fun spent => settledFrom_open id spent (afterCharges_unsettled endOfStream)
  | @charged events endOfStream idle uncut allowed =>
    have reads : ∀ t, observed s (.chunk events endOfStream) t = events.map (·.1) := by
      intro t
      simp [observed, uncut]
    rw [reads]
    refine account.unmoved coherent rfl rfl (openAt idle (by simp))
      fun spent => settledFrom_open id spent fun estimated authoritative pending => ?_
    split
    · exact afterCharges_unsettled endOfStream estimated authoritative pending
    · exact chargePhase_unsettled _ _ endOfStream estimated authoritative pending
  | tripped charging outcome =>
    exact account.charge listed charging coherent ready rfl rfl (afterCharges_unsettled _)
  | paid charging outcome =>
    exact account.charge listed charging coherent ready rfl rfl (chargePhase_unsettled _ _ _)
  | finished waiting =>
    refine account.unmoved coherent rfl rfl (waiting.elim (openAt · (by simp)) (openAt · (by simp))) ?_
    intro spent
    cases found : s.ctx.meter.authoritativeOutput with
    | none => rfl
    | some auth => simp only [Phase.settledFrom, account.coherent.caps, if_pos listed]
  | reconciled settling => exact account.reconciled listed settling coherent ready
  | other called => cases alone

/-- Settling to a count leaves a saturating counter at or above what went into it exactly when that fits the
    counter and the count is not below the estimate, unless nothing went into it at all. -/
private theorem settled_floor {total estimated auth : Nat} :
    total ≤ (if auth ≥ estimated then saturatingAdd (min total u64Max) (auth - estimated)
        else min total u64Max - (estimated - auth)) ↔
      total ≤ u64Max ∧ (total = 0 ∨ estimated ≤ auth) := by
  unfold saturatingAdd
  split <;> omega

/-- A stream leaves a spender with at least what it had before and what was metered to it exactly when that
    fits the counter and the last output count the provider reported is not below the estimate of the output
    read, unless nothing was spent or metered at all. With no count reported the floor holds. -/
theorem floor_iff_reported_not_below_estimate (bound : CapList) (id : CapId) (budgets : NodeBudgets)
    (wasmPerEvent : Bool) (actions : List Action) (t : State) (estimated : Nat) (authoritative : Option Nat)
    (listed : id ∈ bound.caps.map (·.1)) (ready : Ready bound budgets)
    (alone : ∀ action ∈ actions, action.isOther = false)
    (executed : Runs.exec step (.start budgets bound wasmPerEvent) actions = some t)
    (settled : t.phase = .settling estimated authoritative [])
    (counter : budgets.spentOf id ≤ u64Max) :
    budgets.spentOf id + chargedTo id (.start budgets bound wasmPerEvent) actions ≤ t.spentOf id ↔
      budgets.spentOf id + chargedTo id (.start budgets bound wasmPerEvent) actions ≤ u64Max ∧
        (budgets.spentOf id + chargedTo id (.start budgets bound wasmPerEvent) actions = 0 ∨
          ∀ auth, reportedOutputOf (observedOf (.start budgets bound wasmPerEvent) actions) = some auth →
            estimateOf (observedOf (.start budgets bound wasmPerEvent) actions) ≤ auth) := by
  have initial : FloorAccount bound id (budgets.spentOf id) (.start budgets bound wasmPerEvent) [] := {
    coherent := start_coherent budgets bound wasmPerEvent
    ready := ready
    meter := rfl
    spent := by
      have fits : saturatingAdd (budgets.spentOf id) 0 = budgets.spentOf id := saturatingAdd_eq counter
      exact fits.symm }
  have final := Runs.exec_records (floorAccount_step listed (budgets.spentOf id)) initial
    (Runs.along_of_forall fun _ => alone) executed
  rw [List.nil_append] at final
  have charges : ∀ s, ((Runs.trace step (fun s action t => (metered id s action t, observed s action t)) s
      actions).map (·.1)).sum = chargedTo id s actions := fun s => by
    rw [Runs.trace_map]
    rfl
  have events : ∀ s, ((Runs.trace step (fun s action t => (metered id s action t, observed s action t)) s
      actions).map (·.2)).flatten = observedOf s actions := fun s => by
    rw [Runs.trace_map]
    rfl
  have meter := final.meter
  rw [events] at meter
  obtain ⟨estimates, reports⟩ := observe_new (observedOf (.start budgets bound wasmPerEvent) actions)
  obtain ⟨known, counted⟩ := final.coherent.settling _ _ _ settled
  have estimate : estimateOf (observedOf (.start budgets bound wasmPerEvent) actions) = estimated := by
    rw [known, meter, estimates]
  have report : reportedOutputOf (observedOf (.start budgets bound wasmPerEvent) actions) = authoritative := by
    rw [counted, meter, reports]
  have spent := final.spent
  rw [charges, settled] at spent
  rw [spent, estimate, report]
  cases authoritative with
  | none =>
    simp only [Phase.settledFrom, saturatingAdd, reduceCtorEq, false_imp_iff, implies_true, or_true, and_true]
    omega
  | some auth =>
    simp only [Phase.settledFrom, List.map_nil, List.not_mem_nil, if_false, Option.some.injEq, forall_eq']
    exact settled_floor

/-- Ten tokens of output are metered to the team and the provider counts ten: the floor holds. -/
theorem floor_holds_at_equal_count :
    10 ≤ ((Runs.exec step (.start (appThenTeamAdmitted 100) (appThenTeam 100) false)
      (fortyCharsCharged 2)).getD (.start (.new "n1") (appThenTeam 100) false)).spentOf ⟨"team", "ml"⟩ := by
  have executed := Runs.exec_eq_getD step (.start (appThenTeamAdmitted 100) (appThenTeam 100) false)
    (fortyCharsCharged 2) (by decide +kernel) (.start (.new "n1") (appThenTeam 100) false)
  have floor := (floor_iff_reported_not_below_estimate (appThenTeam 100) ⟨"team", "ml"⟩
    (appThenTeamAdmitted 100) false (fortyCharsCharged 2) _ 10 (some 10) (by decide)
    (appThenTeam_ready 100 (by decide +kernel)) (by decide) executed (by decide +kernel)
    (by decide +kernel)).mpr ⟨by decide +kernel, Or.inr (by decide +kernel)⟩
  have metered : chargedTo ⟨"team", "ml"⟩ (.start (appThenTeamAdmitted 100) (appThenTeam 100) false)
      (fortyCharsCharged 2) = 10 := by decide +kernel
  rw [metered] at floor
  exact le_trans (Nat.le_add_left 10 _) floor

/-- The events a chunk brings, without the answers of the modules. -/
def Action.chunkEvents : Action → Option (List Event)
  | .chunk events _ => some (events.map (·.1))
  | _ => none

/-- The first data of an Anthropic stream, which counts one token of output so far. -/
def openingData : String :=
  "\x7b\"type\":\"message_start\",\"message\":\x7b\"usage\":\x7b\"input_tokens\":10,\"output_tokens\":1\x7d\x7d\x7d"

/-- Data that brings forty characters of output. -/
def fortyCharsData : String :=
  "\x7b\"type\":\"content_block_delta\",\"index\":0,\"delta\":\x7b\"type\":\"text_delta\",\"text\":\"" ++
    String.ofList (List.replicate 40 'x') ++ "\"\x7d\x7d"

/-- A JSON library on the two texts above. -/
def openingJson : JsonText where
  fromStr text :=
    if text = openingData then
      .ok (.object [("message", .object [("usage", .object [("input_tokens", .number (.posInt 10)),
        ("output_tokens", .number (.posInt 1))])]), ("type", .string "message_start")])
    else if text = fortyCharsData then
      .ok (.object [("delta", .object [("text", .string (String.ofList (List.replicate 40 'x'))),
        ("type", .string "text_delta")]), ("index", .number (.posInt 0)),
        ("type", .string "content_block_delta")])
    else .error "expected value at line 1 column 1"
  fromSlice _ := .error "expected value at line 1 column 1"
  toText _ := "null"
  toVec _ := []

/-- The stream opens, brings forty characters, which are charged, and the client goes away. -/
def openedThenAborted : List Action :=
  [.chunk [(.messageStart none none, none), (.usageDelta (some 10) (some 1), none)] false,
    .chunk [(.contentDelta 0 (String.ofList (List.replicate 40 'x')), none)] false, .charge 0, .charge 0,
    .finish [] (some .clientAbort), .settle 0, .settle 0]

/-- The usage frame that opens an Anthropic stream reports one output token. The client goes away before the
    final frame, and the settlement refunds nine of the ten tokens metered since. -/
theorem opening_usage_refunds_metered_output :
    ¬ ∀ (json : JsonText) (kind : ProviderKind) (chunks : List (List Message)) (bound : CapList) (id : CapId)
        (budgets : NodeBudgets) (wasmPerEvent : Bool) (actions : List Action) (t : State) (estimated : Nat)
        (authoritative : Option Nat),
      (∀ chunk ∈ chunks, ∀ message ∈ chunk, isTerminalUsage json kind message = false) →
        actions.filterMap Action.chunkEvents = kind.newAdapter.feedAll json chunks →
          id ∈ bound.caps.map (·.1) → Ready bound budgets →
            (∀ action ∈ actions, action.isOther = false) →
              Runs.exec step (.start budgets bound wasmPerEvent) actions = some t →
                t.phase = .settling estimated authoritative [] → budgets.spentOf id ≤ u64Max →
                  budgets.spentOf id + chargedTo id (.start budgets bound wasmPerEvent) actions ≤
                    t.spentOf id := by
  intro claimed
  have executed := Runs.exec_eq_getD step (.start (appThenTeamAdmitted 100) (appThenTeam 100) false)
    openedThenAborted (by decide +kernel) (.start (.new "n1") (appThenTeam 100) false)
  have floor := claimed openingJson .anthropic [[.data openingData], [.data fortyCharsData]]
    (appThenTeam 100) ⟨"team", "ml"⟩ (appThenTeamAdmitted 100) false openedThenAborted _ 10 (some 1)
    (by decide) (by decide +kernel) (by decide) (appThenTeam_ready 100 (by decide +kernel))
    (by decide) executed (by decide +kernel) (by decide +kernel)
  revert floor
  decide +kernel

end SmallGateway.Stream
