import SmallGateway.StreamBilling

/-!
The exactness of a settlement. When the provider reported a count, what a stream changes one spender's
counter by is that count exactly when the charges of the run covered the whole estimate for the spender
(`net_change_exact_iff_output_covered`). A spender misses output in two ways: a cap before it in the list
cuts the stream and the charges stop there, or a chunk is counted in the estimate and not charged because
the stream was cut.
-/

namespace SmallGateway.Stream

/-- What a step of the stream itself changes a spender's counter by. -/
def ownChange (id : CapId) (s : State) : Action → State → Int
  | .other _, _ => 0
  | _, t => t.spentOf id - s.spentOf id

/-- What the stream's own steps of a run change a spender's counter by. -/
def netChange (id : CapId) (s : State) (actions : List Action) : Int :=
  (Runs.trace step (ownChange id) s actions).sum

/-- The stream's call on a spender's counter does not saturate it. -/
def Unsaturated (id : CapId) (s : State) : Action → Prop
  | .charge _ => ∀ next ∈ s.phase.nextCharge, next.id = id → s.spentOf id + next.delta ≤ u64Max
  | .settle _ =>
    ∀ next ∈ s.phase.nextSettlement, next.id = id →
      s.spentOf id + (next.auth - next.estimated) ≤ u64Max ∧ next.estimated - next.auth ≤ s.spentOf id
  | _ => True

instance (id : CapId) (s : State) : DecidablePred (Unsaturated id s)
  | .charge _ => inferInstanceAs (Decidable (∀ next ∈ s.phase.nextCharge, _))
  | .settle _ => inferInstanceAs (Decidable (∀ next ∈ s.phase.nextSettlement, _))
  | .chunk _ _ | .finish _ _ | .other _ => isTrue trivial

/-- The step leaves no output of the stream uncharged to the spender. A chunk does when it only tears the
    session down, when it brings no new tokens, or when nothing cuts the stream before its charges; a charge
    does when the spender is not waiting behind one whose bound the charge passes. -/
def CoversOutput (id : CapId) (s : State) : Action → Prop
  | .chunk events endOfStream =>
    (s.ctx.cut && !endOfStream) = true ∨ s.ctx.delta events = 0 ∨
      (s.ctx.cut = false ∧ ¬ s.ctx.ModuleCuts events)
  | .charge _ =>
    ∀ next ∈ s.phase.nextCharge, id ∈ next.behind.map (·.1) →
      saturatingAdd (s.spentOf next.id) next.delta ≤ s.budgets.cutBound next.id next.terms
  | _ => True

instance (id : CapId) (s : State) : DecidablePred (CoversOutput id s)
  | .chunk _ _ => inferInstanceAs (Decidable (_ ∨ _ ∨ (_ ∧ ¬ _)))
  | .charge _ => inferInstanceAs (Decidable (∀ next ∈ s.phase.nextCharge, _))
  | .finish _ _ | .settle _ | .other _ => isTrue trivial

section

variable {bound : CapList} {id : CapId} {s t : State} {action : Action}

/-- A charge changes the counter of the spender it is for by its delta. -/
private theorem charge_changes (listed : id ∈ bound.caps.map (·.1)) (coherent : Coherent bound s)
    (ready : Ready bound s.budgets) {head : CapId} {terms : CapTerms} {rest : List (CapId × CapTerms)}
    {delta nowUnix : Nat} {endOfStream : Bool}
    (charging : s.phase = .charging delta ((head, terms) :: rest) endOfStream)
    (unsaturated : Unsaturated id s (.charge nowUnix))
    (paid : t.budgets = (s.budgets.meter head (some terms) delta nowUnix).2.2) :
    ownChange id s (.charge nowUnix) t = billed id s (.charge nowUnix) t := by
  have left := coherent.pending
  rw [charging] at left
  have spent := ready.lifetime.charge_spentOf (left.subset List.mem_cons_self) listed delta nowUnix
  simp only [ownChange, billed, State.spentOf, paid, spent, charging]
  by_cases mine : head = id
  · subst mine
    have fits : s.budgets.spentOf head + delta ≤ u64Max :=
      unsaturated ⟨delta, head, terms, rest⟩ (by rw [charging]; rfl) rfl
    simp only [if_true]
    rw [saturatingAdd_eq fits]
    omega
  · simp [mine]

/-- While the spenders have lifetime entries and no call saturates, what the stream's own step changes the spender's
    counter by is what it adds to the bill. -/
private theorem ownChange_eq_billed (listed : id ∈ bound.caps.map (·.1)) (coherent : Coherent bound s)
    (ready : Ready bound s.budgets) (unsaturated : Unsaturated id s action) (stepped : Stepped s action t) :
    ownChange id s action t = billed id s action t := by
  cases stepped with
  | torn => simp [ownChange, billed]
  | uncharged => simp [ownChange, billed, State.spentOf]
  | charged => simp [ownChange, billed, State.spentOf]
  | @tripped head terms rest delta nowUnix endOfStream charging outcome =>
    exact charge_changes listed coherent ready charging unsaturated rfl
  | @paid head terms rest delta nowUnix endOfStream charging outcome =>
    exact charge_changes listed coherent ready charging unsaturated rfl
  | finished => simp [ownChange, billed, State.spentOf]
  | @reconciled estimated authoritative head terms rest nowUnix settling =>
    cases authoritative with
    | none => simp [ownChange, billed, State.spentOf, settleOne, settling, Phase.nextSettlement]
    | some auth =>
      have spent := ready.settle_spentOf listed head estimated auth nowUnix
      simp only [ownChange, billed, State.spentOf, spent, settling, Phase.nextSettlement]
      by_cases mine : head = id
      · subst mine
        have within : s.budgets.spentOf head + (auth - estimated) ≤ u64Max ∧
            estimated - auth ≤ s.budgets.spentOf head :=
          unsaturated ⟨estimated, auth, head⟩ (by rw [settling]; rfl) rfl
        obtain ⟨fits, covered⟩ := within
        simp only [if_true]
        split
        · rw [saturatingAdd_eq fits]
          omega
        · omega
      · simp [mine]
  | other => rfl

/-- For lifetime spenders, billing the output is covering it. -/
private theorem covers_iff_bills (coherent : Coherent bound s) (ready : Ready bound s.budgets) :
    CoversOutput id s action ↔ BillsOutput id s action := by
  cases action with
  | charge nowUnix =>
    have lifetime : ∀ next ∈ s.phase.nextCharge,
        (s.budgets.PassesBound next.id next.terms next.delta nowUnix ↔
          s.budgets.cutBound next.id next.terms < saturatingAdd (s.spentOf next.id) next.delta) := by
      intro next found
      have left := coherent.pending
      have listed : (next.id, next.terms) ∈ bound.caps := by
        cases phase : s.phase with
        | charging delta pending endOfStream =>
          rw [phase] at found left
          cases pending with
          | nil => cases found
          | cons head rest =>
            obtain rfl := Option.some.inj found
            exact left.subset List.mem_cons_self
        | idle => rw [phase] at found; cases found
        | ended => rw [phase] at found; cases found
        | settling => rw [phase] at found; cases found
        | terminal => rw [phase] at found; cases found
      have inside := ready.lifetime _ listed
      exact inside.2.passesBound inside.1 next.delta nowUnix
    refine forall₂_congr fun next found => imp_congr_right fun _ => ?_
    rw [lifetime next found, Nat.not_lt]
  | chunk events endOfStream => exact Iff.rfl
  | finish events abort => exact Iff.rfl
  | settle nowUnix => exact Iff.rfl
  | other op => exact Iff.rfl

end

/-- What holds between the steps of a run whose calls meet the environment. -/
private theorem environment_kept {bound : CapList} {id : CapId} (listed : id ∈ bound.caps.map (·.1)) :
    ∀ s action t, Coherent bound s ∧ Ready bound s.budgets →
      OthersLifetime bound action ∧ Unsaturated id s action → step s action = some t →
        (Coherent bound t ∧ Ready bound t.budgets) ∧ ownChange id s action t = billed id s action t ∧
          (CoversOutput id s action ↔ BillsOutput id s action) := by
  rintro s action t ⟨coherent, ready⟩ ⟨others, unsaturated⟩ made
  have capped : bound.caps ≠ [] := by
    rintro none
    simp [none] at listed
  have stepped := step_stepped capped coherent made
  exact ⟨⟨stepped.coherent coherent, ready.step coherent others stepped⟩,
    ownChange_eq_billed listed coherent ready unsaturated stepped, covers_iff_bills coherent ready⟩

/-- The net change a settled stream makes to a spender is the provider's count exactly when every step of the
    run left none of its output uncharged to the spender; and exactly then the estimate passed to the
    settlement is the sum of what the stream charged to it. -/
theorem net_change_exact_iff_output_covered (bound : CapList) (id : CapId) (budgets : NodeBudgets)
    (wasmPerEvent : Bool) (actions : List Action) (t : State) (estimated auth : Nat)
    (listed : id ∈ bound.caps.map (·.1)) (ready : Ready bound budgets)
    (environment : Runs.Along step (fun s action => OthersLifetime bound action ∧ Unsaturated id s action)
      (.start budgets bound wasmPerEvent) actions)
    (executed : Runs.exec step (.start budgets bound wasmPerEvent) actions = some t)
    (settled : t.phase = .settling estimated (some auth) []) :
    (netChange id (.start budgets bound wasmPerEvent) actions = auth ↔
        Runs.Along step (CoversOutput id) (.start budgets bound wasmPerEvent) actions) ∧
      (chargedTo id (.start budgets bound wasmPerEvent) actions = estimated ↔
        Runs.Along step (CoversOutput id) (.start budgets bound wasmPerEvent) actions) := by
  have initial : Coherent bound (.start budgets bound wasmPerEvent) ∧ Ready bound budgets :=
    ⟨start_coherent budgets bound wasmPerEvent, ready⟩
  have changes : netChange id (.start budgets bound wasmPerEvent) actions =
      netSpend id (.start budgets bound wasmPerEvent) actions :=
    congrArg List.sum (Runs.trace_congr_along (fun s a t inv met made => (environment_kept listed s a t inv met made).1)
      (fun s a t inv met made => (environment_kept listed s a t inv met made).2.1) initial environment executed)
  have covers : Runs.Along step (CoversOutput id) (.start budgets bound wasmPerEvent) actions ↔
      Runs.Along step (BillsOutput id) (.start budgets bound wasmPerEvent) actions :=
    Runs.along_congr_along (fun s a t inv met made => (environment_kept listed s a t inv met made).1)
      (fun s a t inv met made => (environment_kept listed s a t inv met made).2.2) initial environment executed
  have sum := netSpend_settled listed executed settled
  have exact_iff := (billed_exactly_iff_covered listed executed settled).2
  rw [changes, covers]
  refine ⟨Iff.trans ?_ exact_iff, exact_iff⟩
  omega

/-- The spenders of the runs below: an application with a cap of its own, then its team. -/
def appThenTeam (appCap : Nat) : CapList where
  caps := [(⟨"app", "chat"⟩, ⟨appCap, none, 4 / 5⟩), (⟨"team", "ml"⟩, ⟨100, none, 4 / 5⟩)]
  distinct := by simp

/-- A new node that has admitted a request for them. -/
def appThenTeamAdmitted (appCap : Nat) : NodeBudgets :=
  (admitCaps (.new "n1") (appThenTeam appCap).caps 0).2

theorem appThenTeam_ready (appCap : Nat)
    (admits : (admitCaps (.new "n1") (appThenTeam appCap).caps 0).1.isOk = true) :
    Ready (appThenTeam appCap) (appThenTeamAdmitted appCap) := by
  have lifetime : LifetimeCaps (appThenTeam appCap) (.new "n1") := by
    intro cap inside
    refine ⟨?_, NodeBudgets.new_lifetime _ _⟩
    simp only [appThenTeam, List.mem_cons, List.not_mem_nil, or_false] at inside
    rcases inside with rfl | rfl
    · rfl
    · rfl
  rcases ok : admitCaps (.new "n1") (appThenTeam appCap).caps 0 with ⟨result, after⟩
  rw [ok] at admits
  cases result with
  | error denial => cases admits
  | ok admitted =>
    have reached : appThenTeamAdmitted appCap = after := by rw [appThenTeamAdmitted, ok]
    rw [reached]
    exact admitCaps_ready lifetime ok

/-- Forty characters of output arrive with the provider's count of ten tokens; the estimate is ten too. The
    application is charged, then the team, and both are settled. -/
def fortyCharsCharged (charges : Nat) : List Action :=
  .chunk [(.contentDelta 0 (String.ofList (List.replicate 40 'x')), none),
      (.usageDelta none (some 10), none)] false ::
    List.replicate charges (.charge 0) ++ [.finish [] (some .clientAbort), .settle 0, .settle 0]

private theorem fortyChars_others (bound : CapList) (s : State) (charges : Nat) :
    Runs.Along step (fun _ action => OthersLifetime bound action) s (fortyCharsCharged charges) := by
  refine Runs.along_of_forall fun s action inside => ?_
  cases action with
  | other op => simp [fortyCharsCharged] at inside
  | chunk events endOfStream => trivial
  | charge nowUnix => trivial
  | finish events abort => trivial
  | settle nowUnix => trivial

/-- With room under both caps the team's counter changes by the provider's count. -/
theorem net_change_exact_under_roomy_caps :
    netChange ⟨"team", "ml"⟩ (.start (appThenTeamAdmitted 100) (appThenTeam 100) false)
      (fortyCharsCharged 2) = 10 := by
  have executed := Runs.exec_eq_getD step (.start (appThenTeamAdmitted 100) (appThenTeam 100) false)
    (fortyCharsCharged 2) (by decide +kernel) (.start (.new "n1") (appThenTeam 100) false)
  refine (net_change_exact_iff_output_covered (appThenTeam 100) ⟨"team", "ml"⟩ (appThenTeamAdmitted 100)
    false (fortyCharsCharged 2) _ 10 10 (by decide) (appThenTeam_ready 100 (by decide +kernel)) ?_ executed
    (by decide +kernel)).1.mpr (by decide +kernel)
  exact Runs.along_and (fortyChars_others _ _ _) (by decide +kernel)

/-- The application's cap of five cuts the stream and the team behind it is never charged, yet the settlement
    compares the whole estimate with the provider's count: the team's counter does not move, although the
    provider counted ten tokens. -/
theorem cut_before_spender_misses_count :
    ¬ ∀ (bound : CapList) (id : CapId) (budgets : NodeBudgets) (wasmPerEvent : Bool) (actions : List Action)
        (t : State) (estimated auth : Nat), id ∈ bound.caps.map (·.1) → Ready bound budgets →
      Runs.Along step (fun s action => OthersLifetime bound action ∧ Unsaturated id s action)
          (.start budgets bound wasmPerEvent) actions →
        Runs.exec step (.start budgets bound wasmPerEvent) actions = some t →
          t.phase = .settling estimated (some auth) [] →
            netChange id (.start budgets bound wasmPerEvent) actions = auth ∧
              chargedTo id (.start budgets bound wasmPerEvent) actions = estimated := by
  intro claimed
  have executed := Runs.exec_eq_getD step (.start (appThenTeamAdmitted 5) (appThenTeam 5) false)
    (fortyCharsCharged 1) (by decide +kernel) (.start (.new "n1") (appThenTeam 5) false)
  have exact_ := claimed (appThenTeam 5) ⟨"team", "ml"⟩ (appThenTeamAdmitted 5) false (fortyCharsCharged 1) _
    10 10 (by decide) (appThenTeam_ready 5 (by decide +kernel))
    (Runs.along_and (fortyChars_others _ _ _) (by decide +kernel)) executed (by decide +kernel)
  revert exact_
  decide +kernel

end SmallGateway.Stream
