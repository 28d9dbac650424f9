import SmallGateway.DocumentBilling
import SmallGateway.ResponseTap

/-!
The bill of one answer in its two framings. A provider stream is billed the output count alone and the body under the
terminal-parse tap the input and the output, so for the same usage they agree on a spender exactly when the input adds
nothing and the stream left no output uncharged to the spender (`streamed_bills_as_document_iff`). That is so for the
bill and, as long as no call saturates the spender's counter, for the counter, in whatever windows the calls are made.
-/

namespace SmallGateway

namespace Stream

/-- A call of the stream on a spender's counter: the counter as the call finds it, in the window that is open then,
    and what the call adds and takes back. -/
structure CounterCall where
  found : Nat
  added : Nat
  taken : Nat

/-- The spender that a charge is for, and its tokens. -/
def Phase.nextCall : Phase → Option (CapId × CapTerms × Nat)
  | .charging delta ((head, terms) :: _) _ => some (head, terms, delta)
  | .terminal charged ((head, terms) :: _) => some (head, terms, charged)
  | _ => none

/-- The call on the spender's counter that the step makes. -/
def counterCall (id : CapId) (s : State) : Action → Option CounterCall
  | .charge nowUnix =>
    s.phase.nextCall.bind fun (head, terms, tokens) =>
      if head = id then
        some ⟨((s.budgets.ensure id (some terms.cap)).syncTerms (some terms) nowUnix).budget.spent, tokens, 0⟩
      else none
  | .settle nowUnix =>
    s.phase.nextSettlement.bind fun next =>
      if next.id = id then
        some ⟨((s.budgets.ensure id none).roll nowUnix).budget.spent, next.auth - next.estimated,
          next.estimated - next.auth⟩
      else none
  | _ => none

/-- What the step changes the spender's counter by, from what its call finds. -/
def counterChange (id : CapId) (s : State) (action : Action) (t : State) : Int :=
  match counterCall id s action with
  | some call => t.spentOf id - call.found
  | none => 0

/-- What a run's own calls change the spender's counter by. -/
def counterNet (id : CapId) (s : State) (actions : List Action) : Int :=
  (Runs.trace step (counterChange id) s actions).sum

/-- The call of the step does not saturate the spender's counter. -/
def FitsCounter (id : CapId) (s : State) (action : Action) : Prop :=
  ∀ call ∈ counterCall id s action, call.found + call.added ≤ u64Max ∧ call.taken ≤ call.found

instance (id : CapId) (s : State) (action : Action) : Decidable (FitsCounter id s action) :=
  inferInstanceAs (Decidable (∀ call ∈ counterCall id s action, _))

section

variable {id : CapId} {s t : State} {action : Action} {nowUnix : Nat}

/-- The bill of a step is what its call adds and takes back. -/
theorem billed_eq_call (id : CapId) (s : State) (action : Action) (t : State) :
    billed id s action t = ((counterCall id s action).map fun call => (call.added : Int) - call.taken).getD 0 := by
  cases action with
  | charge nowUnix =>
    have bills : billed id s (.charge nowUnix) t =
        (s.phase.nextCall.map fun call => if call.1 = id then (call.2.2 : Int) else 0).getD 0 := by
      cases phase : s.phase with
      | charging delta pending endOfStream => cases pending <;> simp [billed, phase, Phase.nextCall]
      | terminal charged pending => cases pending <;> simp [billed, phase, Phase.nextCall]
      | _ => simp [billed, phase, Phase.nextCall]
    rw [bills, counterCall]
    cases s.phase.nextCall with
    | none => rfl
    | some call =>
      by_cases mine : call.1 = id
      · simp [mine]
      · simp [mine]
  | settle nowUnix =>
    simp only [billed, counterCall]
    cases s.phase.nextSettlement with
    | none => rfl
    | some next =>
      by_cases mine : next.id = id
      · simp only [mine, if_true, Option.bind_some, Option.map_some, Option.getD_some]
        omega
      · simp [mine]
  | chunk events endOfStream => rfl
  | finish events abort => rfl
  | other op => rfl

/-- What a charge leaves on the counters. -/
theorem charge_budgets (stepped : step s (.charge nowUnix) = some t) :
    ∃ head terms tokens, s.phase.nextCall = some (head, terms, tokens) ∧
      t.budgets = (s.budgets.meter head (some terms) tokens nowUnix).2.2 := by
  cases step_moved stepped with
  | tripped charging outcome => exact ⟨_, _, _, by rw [charging]; rfl, rfl⟩
  | paid charging outcome => exact ⟨_, _, _, by rw [charging]; rfl, rfl⟩
  | counted charging => exact ⟨_, _, _, by rw [charging]; rfl, rfl⟩

/-- What settling a spender leaves on the counters. -/
theorem settle_budgets (stepped : step s (.settle nowUnix) = some t) :
    (s.phase.nextSettlement = none ∧ t.budgets = s.budgets) ∨
      ∃ next, s.phase.nextSettlement = some next ∧
        t.budgets = s.budgets.settle next.id next.estimated next.auth nowUnix := by
  cases step_moved stepped with
  | @reconciled estimated authoritative id terms rest _ settling =>
    cases authoritative with
    | none => exact Or.inl ⟨by rw [settling]; rfl, rfl⟩
    | some auth => exact Or.inr ⟨⟨estimated, auth, id⟩, by rw [settling]; rfl, rfl⟩

/-- A call that does not saturate the counter changes it by its bill. -/
theorem counterChange_eq_billed (seen : NodeBudgets.Seen id s.budgets) (fits : FitsCounter id s action)
    (stepped : step s action = some t) : counterChange id s action t = billed id s action t := by
  rw [billed_eq_call, counterChange]
  cases called : counterCall id s action with
  | none => rfl
  | some call =>
    obtain ⟨adds, takes⟩ := fits call called
    suffices changed : t.spentOf id = call.found + call.added - call.taken by
      simp only [changed, Option.map_some, Option.getD_some]
      omega
    cases action with
    | charge nowUnix =>
      obtain ⟨head, terms, tokens, next, metered⟩ := charge_budgets stepped
      simp only [counterCall, next, Option.bind_some, Option.ite_none_right_eq_some, Option.some.injEq] at called
      obtain ⟨rfl, rfl⟩ := called
      obtain ⟨latch, found⟩ := NodeBudgets.meter_entry s.budgets head (some terms) tokens nowUnix
      rw [State.spentOf, metered, NodeBudgets.spentOf_entry found, LocalBudget.commit_spent]
      exact saturatingAdd_eq adds
    | settle nowUnix =>
      obtain ⟨entry, found⟩ := seen
      rcases settle_budgets stepped with ⟨none, -⟩ | ⟨next, some, settled⟩
      · simp [counterCall, none] at called
      · simp only [counterCall, some, Option.bind_some, Option.ite_none_right_eq_some, Option.some.injEq] at called
        obtain ⟨rfl, rfl⟩ := called
        have entered := NodeBudgets.settle_entry found next.estimated next.auth nowUnix
        rw [NodeBudgets.ensure_seen found] at adds takes ⊢
        dsimp only at adds takes ⊢
        rw [State.spentOf, settled, NodeBudgets.spentOf_entry entered, LocalBudget.reconcile_spent]
        split
        · rw [saturatingAdd_eq adds]
          omega
        · omega
    | chunk events endOfStream => cases called
    | finish events abort => cases called
    | other op => cases called

theorem step_seen (seen : NodeBudgets.Seen id s.budgets) (stepped : step s action = some t) :
    NodeBudgets.Seen id t.budgets := by
  cases step_moved stepped with
  | chunk idle unsettled => exact seen
  | tripped charging outcome => exact seen.meter _ _ _ _
  | paid charging outcome => exact seen.meter _ _ _ _
  | counted charging => exact seen.meter _ _ _ _
  | finished waiting finishes => exact seen
  | @reconciled estimated authoritative _ terms rest nowUnix settling =>
    cases authoritative with
    | none => exact seen
    | some auth => exact seen.settle _ _ _ _
  | other called => exact NodeBudgets.seen_preserved id _ _ _ seen called

/-- Over a run whose calls do not saturate the counter, the counter changes by the bill. -/
theorem counterNet_eq_netSpend {actions : List Action} (seen : NodeBudgets.Seen id s.budgets)
    (fits : Runs.Along step (FitsCounter id) s actions) (executed : Runs.exec step s actions = some t) :
    counterNet id s actions = netSpend id s actions := by
  have kept : ∀ s action t, NodeBudgets.Seen id s.budgets → FitsCounter id s action → step s action = some t →
      NodeBudgets.Seen id t.budgets := fun _ _ _ seen _ stepped => step_seen seen stepped
  have changes : ∀ s action t, NodeBudgets.Seen id s.budgets → FitsCounter id s action → step s action = some t →
      counterChange id s action t = billed id s action t :=
    fun _ _ _ seen fits stepped => counterChange_eq_billed seen fits stepped
  rw [counterNet, Runs.trace_congr_along kept changes seen fits executed]
  rfl

end

/-- The usage of the provider, as the settlement of the response reads it. -/
def State.Reports (s : State) (input output : Nat) : Prop :=
  s.ctx.meter.authoritativeInput = some input ∧ s.ctx.meter.authoritativeOutput = some output

instance (s : State) (input output : Nat) : Decidable (s.Reports input output) :=
  inferInstanceAs (Decidable (_ ∧ _))

section

variable {bound : CapList} {id : CapId} {budgets : NodeBudgets} {wasmPerEvent : Bool} {actions : List Action}
  {t : State} {input output : Nat}

private theorem capped_of_listed (listed : id ∈ bound.caps.map (·.1)) : bound.caps ≠ [] := by
  rintro none
  simp [none] at listed

/-- A settled stream bills a spender the output at most, and bills it the output exactly when no step left output
    uncharged to the spender. -/
theorem streamed_bill (listed : id ∈ bound.caps.map (·.1))
    (executed : Runs.exec step (.start budgets bound wasmPerEvent) actions = some t) (settled : t.Settled)
    (reports : t.Reports input output) :
    netSpend id (.start budgets bound wasmPerEvent) actions ≤ output ∧
      (netSpend id (.start budgets bound wasmPerEvent) actions = output ↔
        Runs.Along step (BillsOutput id) (.start budgets bound wasmPerEvent) actions) := by
  have phase := (exec_coherent (capped_of_listed listed) executed).settled_phase settled
  rw [reports.2] at phase
  have sum := netSpend_settled listed executed phase
  obtain ⟨most, covered⟩ := billed_exactly_iff_covered listed executed phase
  rw [← covered]
  omega

/-- A settled body under the terminal-parse tap bills each spender the input and the output. -/
theorem document_bill (listed : id ∈ bound.caps.map (·.1)) (holds : ∀ action ∈ actions, HoldsBody action)
    (executed : Runs.exec step (.startDocument budgets bound wasmPerEvent) actions = some t) (settled : t.Settled)
    (reports : t.Reports input output) :
    netSpend id (.startDocument budgets bound wasmPerEvent) actions = saturatingAdd input output := by
  have counted : authTotal t.ctx.meter.report = some (saturatingAdd input output) := by
    simp [authTotal, Meter.report, reports.1, reports.2]
  obtain ⟨done, last⟩ := settled
  rcases (document_settled (capped_of_listed listed) holds executed).settled done with
    ⟨total, pending, terminal, known⟩ | ⟨-, none, -⟩
  · rw [terminal] at last
    obtain rfl : pending = [] := last
    rw [counted] at known
    obtain rfl := Option.some.inj known
    exact netSpend_document listed holds executed terminal
  · rw [counted] at none
    cases none

end

end Stream

namespace Response

open Json (Value)
open SmallGateway.Stream (CapList)

/-- An answer of the provider with its usage, read under a plan and settled. -/
structure Answer (json : JsonText) (crc32 : List UInt8 → Nat) (kind : ProviderKind) (plan : TapPlan) (bound : CapList)
    (input output : Nat) where
  budgets : NodeBudgets
  wasmPerEvent : Bool
  actions : List Action
  after : Response
  executed : Runs.exec (step json crc32) (start budgets bound wasmPerEvent kind plan) actions = some after
  settled : after.stream.Settled
  reports : after.stream.Reports input output

namespace Answer

variable {json : JsonText} {crc32 : List UInt8 → Nat} {kind : ProviderKind} {plan : TapPlan} {bound : CapList}
  {input output : Nat}

def stream (answer : Answer json crc32 kind plan bound input output) : Stream.State :=
  (start answer.budgets bound answer.wasmPerEvent kind plan).stream

def calls (answer : Answer json crc32 kind plan bound input output) : List Stream.Action :=
  (start answer.budgets bound answer.wasmPerEvent kind plan).calls json crc32 answer.actions

/-- What the answer leaves on a spender's bill. -/
def netSpend (answer : Answer json crc32 kind plan bound input output) (id : CapId) : Int :=
  Stream.netSpend id answer.stream answer.calls

/-- What the calls of the answer change a spender's counter by. -/
def counterNet (answer : Answer json crc32 kind plan bound input output) (id : CapId) : Int :=
  Stream.counterNet id answer.stream answer.calls

/-- No step of the answer leaves output uncharged to the spender. -/
def BillsOutput (answer : Answer json crc32 kind plan bound input output) (id : CapId) : Prop :=
  Runs.Along Stream.step (Stream.BillsOutput id) answer.stream answer.calls

/-- The spender has been admitted, and no call of the answer saturates its counter. -/
def FitsCounter (answer : Answer json crc32 kind plan bound input output) (id : CapId) : Prop :=
  NodeBudgets.Seen id answer.budgets ∧ Runs.Along Stream.step (Stream.FitsCounter id) answer.stream answer.calls

theorem counterNet_eq (answer : Answer json crc32 kind plan bound input output) {id : CapId}
    (fits : answer.FitsCounter id) : answer.counterNet id = answer.netSpend id := by
  have seen : NodeBudgets.Seen id answer.stream.budgets := by
    unfold stream start
    cases plan <;> exact fits.1
  exact Stream.counterNet_eq_netSpend seen fits.2 (calls_exec answer.executed)

end Answer

/-- For one usage a stream and a document bill a spender the same exactly when the input adds nothing to the output
    and the stream leaves no output uncharged to the spender; and where no call saturates the spender's counter,
    exactly then they change it by the same. -/
theorem streamed_bills_as_document_iff {json : JsonText} {crc32 : List UInt8 → Nat} {kind : ProviderKind}
    {bound : CapList} {input output : Nat} (streamed : Answer json crc32 kind .stream bound input output)
    (document : Answer json crc32 kind .jsonTerminal bound input output) (id : CapId)
    (listed : id ∈ bound.caps.map (·.1)) (word : output ≤ u64Max) :
    (streamed.netSpend id = document.netSpend id ↔ saturatingAdd input output = output ∧ streamed.BillsOutput id) ∧
      (streamed.FitsCounter id → document.FitsCounter id →
        (streamed.counterNet id = document.counterNet id ↔
          saturatingAdd input output = output ∧ streamed.BillsOutput id)) := by
  obtain ⟨most, covered⟩ := Stream.streamed_bill listed (calls_exec streamed.executed) streamed.settled streamed.reports
  have whole : document.netSpend id = saturatingAdd input output :=
    Stream.document_bill listed document_holds (calls_exec document.executed) document.settled document.reports
  have least : output ≤ saturatingAdd input output := by
    unfold saturatingAdd
    omega
  have agree : streamed.netSpend id = document.netSpend id ↔
      saturatingAdd input output = output ∧ streamed.BillsOutput id := by
    have bill : streamed.netSpend id ≤ output := most
    have billed : streamed.netSpend id = output ↔ streamed.BillsOutput id := covered
    rw [whole, ← billed]
    omega
  refine ⟨agree, fun fits fitsToo => ?_⟩
  rw [streamed.counterNet_eq fits, document.counterNet_eq fitsToo]
  exact agree

/-- A body that carries its usage and nothing else, with its input count in decimal. -/
def usageText (input : String) : String :=
  "\x7b\"usage\":\x7b\"prompt_tokens\":" ++ input ++ ",\"completion_tokens\":2\x7d\x7d"

/-- A JSON library on one such body. -/
def usageJson (text : String) (input : Nat) : JsonText where
  fromStr data := if data = usageText text then .ok usage else .error "expected value at line 1 column 1"
  fromSlice bytes :=
    if bytes = (usageText text).toUTF8.toList then .ok usage else .error "expected value at line 1 column 1"
  toText _ := "null"
  toVec _ := []
where
  usage : Value := .object [("usage", .object [("completion_tokens", .number (.posInt 2)),
    ("prompt_tokens", .number (.posInt input))])]

/-- The body arrives as the data of one event, and the stream ends and is settled. -/
def asStream (text : String) : List Action :=
  [.chunk ("data: " ++ usageText text ++ "\n\n").toUTF8.toList (fun _ => none) true, .finish none, .settle 0]

/-- The body arrives as a document, ends and is charged. -/
def asDocument (text : String) : List Action :=
  [.chunk (usageText text).toUTF8.toList (fun _ => none) true, .finish none, .charge 0]

/-- What reading and settling an answer to a request of the team ends in. -/
def outcomeOf (text : String) (input : Nat) (plan : TapPlan) (actions : List Action) : Option Response :=
  Runs.exec (step (usageJson text input) fun _ => 0) (start teamAdmitted teamOnly false .openai plan) actions

/-- An answer to a request of the team, by evaluation. -/
def answerOf (text : String) (input : Nat) (plan : TapPlan) (actions : List Action)
    (valid : ∃ executed : (outcomeOf text input plan actions).isSome,
      ((outcomeOf text input plan actions).get executed).stream.Settled ∧
        ((outcomeOf text input plan actions).get executed).stream.Reports input 2) :
    Answer (usageJson text input) (fun _ => 0) .openai plan teamOnly input 2 where
  budgets := teamAdmitted
  wasmPerEvent := false
  actions := actions
  after := (outcomeOf text input plan actions).get valid.1
  executed := (Option.some_get valid.1).symm
  settled := valid.2.1
  reports := valid.2.2

/-- With no input to bill, the two framings bill the team the same. -/
theorem usage_without_input_billed_the_same :
    (answerOf "0" 0 .stream (asStream "0") (by decide +kernel)).netSpend ⟨"team", "ml"⟩ =
      (answerOf "0" 0 .jsonTerminal (asDocument "0") (by decide +kernel)).netSpend ⟨"team", "ml"⟩ := by
  refine (streamed_bills_as_document_iff _ _ ⟨"team", "ml"⟩ (by decide) (by decide)).1.mpr ⟨by decide, ?_⟩
  unfold Answer.BillsOutput
  decide +kernel

/-- The stream leaves its input of ten tokens unbilled and the document does not, on the same ledger. -/
theorem stream_leaves_input_unbilled :
    ¬ ∀ (json : JsonText) (crc32 : List UInt8 → Nat) (kind : ProviderKind) (bound : CapList) (input output : Nat)
        (streamed : Answer json crc32 kind .stream bound input output)
        (document : Answer json crc32 kind .jsonTerminal bound input output) (id : CapId),
      id ∈ bound.caps.map (·.1) → output ≤ u64Max → streamed.budgets = document.budgets →
        streamed.netSpend id = document.netSpend id := by
  intro claimed
  have same := claimed (usageJson "10" 10) (fun _ => 0) .openai teamOnly 10 2
    (answerOf "10" 10 .stream (asStream "10") (by decide +kernel))
    (answerOf "10" 10 .jsonTerminal (asDocument "10") (by decide +kernel)) ⟨"team", "ml"⟩ (by decide) (by decide) rfl
  revert same
  unfold Answer.netSpend
  decide +kernel

end Response

end SmallGateway
