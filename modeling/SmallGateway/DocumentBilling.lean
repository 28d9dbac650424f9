import SmallGateway.StreamBilling

/-!
What a response that was not streamed bills. Whatever the tap is, a settlement takes the provider's count to every
spender of the request, in their order (`counts_charged`). Under the terminal-parse tap nothing is charged while the
body arrives, so that count is the whole bill (`netSpend_document`), and a body without a count is stamped
(`document_settled`).
-/

namespace SmallGateway.Stream

/-- The provider's count that a step charges to a spender, or settles it to. -/
def authoritativeCharge (s : State) : Action → State → List (CapId × Nat)
  | .charge _, _ =>
    match s.phase with
    | .terminal charged ((head, _) :: _) => [(head, charged)]
    | _ => []
  | .settle _, _ =>
    match s.phase.nextSettlement with
    | some next => [(next.id, next.auth)]
    | none => []
  | _, _ => []

/-- The provider's counts that a run charges or settles to, in order. -/
def authoritativeCharges (s : State) (actions : List Action) : List (CapId × Nat) :=
  (Runs.trace step authoritativeCharge s actions).flatten

/-- The provider's count of a settlement, and the spenders it is still to be taken to. -/
def Phase.counting : Phase → Option (Nat × List (CapId × CapTerms))
  | .settling _ (some auth) pending => some (auth, pending)
  | .terminal charged pending => some (charged, pending)
  | _ => none

/-- One count for each of the spenders. -/
def chargeEach (count : Nat) (caps : List (CapId × CapTerms)) : List (CapId × Nat) :=
  caps.map fun cap => (cap.1, count)

private theorem afterCharges_counting (endOfStream : Bool) : (afterCharges endOfStream).counting = none := by
  cases endOfStream <;> rfl

private theorem chargePhase_counting (delta : Nat) (pending : List (CapId × CapTerms)) (endOfStream : Bool) :
    (chargePhase delta pending endOfStream).counting = none := by
  unfold chargePhase
  split
  · exact afterCharges_counting endOfStream
  · rfl

theorem filterChunk_caps (ctx : ReqCtx) (events : List (Event × Option String)) (endOfStream : Bool) :
    (filterChunk ctx events endOfStream).1.caps = ctx.caps ∧
      (filterChunk ctx events endOfStream).2.counting = none := by
  unfold filterChunk
  by_cases torn : (ctx.cut && !endOfStream) = true
  · rw [if_pos torn]
    exact ⟨rfl, rfl⟩
  · rw [if_neg torn]
    dsimp only
    split
    · refine ⟨rfl, ?_⟩
      split
      · exact afterCharges_counting endOfStream
      · exact chargePhase_counting _ _ endOfStream
    · exact ⟨rfl, afterCharges_counting endOfStream⟩

/-- A settlement takes the count, if there is one, to every spender of the request. -/
theorem settleStream_caps (ctx : ReqCtx) (finish : List Event) (abort : Option Disposition) :
    (settleStream ctx finish abort).1.caps = ctx.caps ∧
      ∀ counting ∈ (settleStream ctx finish abort).2.counting, counting.2 = ctx.caps.caps := by
  unfold settleStream
  by_cases settled : ctx.settled = true
  · rw [if_pos settled]
    exact ⟨rfl, fun _ found => nomatch found⟩
  · rw [if_neg settled]
    dsimp only
    split
    · split
      · refine ⟨rfl, ?_⟩
        rintro counting ⟨⟩
        rfl
      · exact ⟨rfl, fun _ found => nomatch found⟩
    · refine ⟨rfl, ?_⟩
      cases (finish.foldl Meter.observe ctx.meter).report.authoritativeOutputTokens with
      | none => exact fun _ found => nomatch found
      | some auth =>
        rintro counting ⟨⟩
        rfl

/-- Where a run stands with the provider's count: the counts taken so far and those still to be taken are one for
    each spender. -/
private structure Counting (bound : CapList) (s : State) (yielded : List (List (CapId × Nat))) : Prop where
  caps : s.ctx.caps = bound
  before : s.phase.counting = none → yielded.flatten = []
  since : ∀ counting ∈ s.phase.counting,
    yielded.flatten ++ chargeEach counting.1 counting.2 = chargeEach counting.1 bound.caps

/-- A step that takes no count, from a state in which none is being taken. -/
private theorem Counting.quiet {bound : CapList} {s t : State} {yielded : List (List (CapId × Nat))}
    (counting : Counting bound s yielded) (caps : t.ctx.caps = s.ctx.caps) (none : s.phase.counting = none)
    (taken : ∀ counting ∈ t.phase.counting, counting.2 = bound.caps) : Counting bound t (yielded ++ [[]]) where
  caps := caps.trans counting.caps
  before := by
    intro _
    simpa using counting.before none
  since := by
    intro next found
    rw [taken next found]
    simpa using counting.before none

private theorem counting_step {bound : CapList} :
    ∀ s action t yielded, Counting bound s yielded → True → step s action = some t →
      Counting bound t (yielded ++ [authoritativeCharge s action t]) := by
  intro s action t yielded counting _ made
  cases step_moved made with
  | @chunk events endOfStream idle unsettled =>
    obtain ⟨caps, none⟩ := filterChunk_caps s.ctx events endOfStream
    refine counting.quiet caps (by rw [idle]; rfl) ?_
    simp [none]
  | tripped charging outcome =>
    simp only [authoritativeCharge, charging]
    exact counting.quiet rfl (by rw [charging]; rfl) (by simp [afterCharges_counting])
  | paid charging outcome =>
    simp only [authoritativeCharge, charging]
    exact counting.quiet rfl (by rw [charging]; rfl) (by simp [chargePhase_counting])
  | @counted id terms rest charged nowUnix charging =>
    have since := counting.since (charged, (id, terms) :: rest) (by rw [charging]; rfl)
    refine ⟨counting.caps, by simp [Phase.counting], ?_⟩
    rintro next ⟨⟩
    simpa [authoritativeCharge, charging, chargeEach] using since
  | @finished events abort waiting finishes =>
    obtain ⟨caps, taken⟩ := settleStream_caps s.ctx events abort
    have none : s.phase.counting = none := by
      rcases waiting with idle | ended
      · rw [idle]
        rfl
      · rw [ended]
        rfl
    refine counting.quiet caps none fun next found => ?_
    rw [taken next found, counting.caps]
  | @reconciled estimated authoritative id terms rest nowUnix settling =>
    cases authoritative with
    | none =>
      have quiet : authoritativeCharge s (.settle nowUnix) = fun _ => [] := by
        funext t
        simp only [authoritativeCharge, settling, Phase.nextSettlement]
      rw [quiet]
      refine counting.quiet rfl (by rw [settling]; rfl) fun _ found => ?_
      cases found
    | some auth =>
      have since := counting.since (auth, (id, terms) :: rest) (by rw [settling]; rfl)
      refine ⟨counting.caps, by simp [Phase.counting], ?_⟩
      rintro next ⟨⟩
      simpa [authoritativeCharge, settling, Phase.nextSettlement, chargeEach] using since
  | other called =>
    refine ⟨counting.caps, fun none => ?_, fun next found => ?_⟩
    · simpa [authoritativeCharge] using counting.before none
    · simpa [authoritativeCharge] using counting.since next found

/-- At the end of a settlement the provider's count has been charged, or settled to, once for each spender of the
    request, in their order; and when there was no count to settle, never. -/
theorem counts_charged {s t : State} {actions : List Action} (fresh : s.phase = .idle)
    (executed : Runs.exec step s actions = some t) :
    (t.phase.counting = none → authoritativeCharges s actions = []) ∧
      ∀ count, t.phase.counting = some (count, []) →
        authoritativeCharges s actions = chargeEach count s.ctx.caps.caps := by
  have initial : Counting s.ctx.caps s [] := {
    caps := rfl
    before := fun _ => rfl
    since := by simp [fresh, Phase.counting] }
  have final := Runs.exec_records counting_step initial (Runs.along_of_forall fun _ _ _ => trivial) executed
  rw [List.nil_append] at final
  refine ⟨final.before, fun count last => ?_⟩
  simpa [authoritativeCharges, chargeEach] using final.since (count, []) last

/-! ### A response under the terminal-parse tap -/

/-- A chunk of a body that is held until its end has no events. -/
def HoldsBody : Action → Prop
  | .chunk events _ => events = []
  | _ => True

/-- A response under the terminal-parse tap, about to be read. -/
def State.startDocument (budgets : NodeBudgets) (caps : CapList) (wasmPerEvent : Bool) : State :=
  ⟨budgets, .start caps (some .jsonTerminal) wasmPerEvent, .idle⟩

/-- What holds of a response under the terminal-parse tap: nothing is metered before it is settled, and settling it
    either charges the count of the body or stamps the request. -/
structure Held (bound : CapList) (s : State) : Prop where
  caps : s.ctx.caps = bound
  tap : s.ctx.tap = some .jsonTerminal
  reading : s.ctx.settled = false →
    s.ctx.meter = .new ∧ s.ctx.cut = false ∧ s.ctx.lastMeteredEst = 0 ∧ (s.phase = .idle ∨ s.phase = .ended)
  settled : s.ctx.settled = true →
    (∃ total pending, s.phase = .terminal total pending ∧ authTotal s.ctx.meter.report = some total) ∨
      (s.phase = .idle ∧ authTotal s.ctx.meter.report = none ∧ s.ctx.error.isSome = true)

private theorem startDocument_held (budgets : NodeBudgets) (bound : CapList) (wasmPerEvent : Bool) :
    Held bound (.startDocument budgets bound wasmPerEvent) where
  caps := rfl
  tap := rfl
  reading := fun _ => ⟨rfl, rfl, rfl, Or.inl rfl⟩
  settled := fun settled => nomatch settled

/-- Nothing is charged in parts, and no estimate is settled. -/
private theorem Held.phases {bound : CapList} {s : State} (held : Held bound s) :
    s.phase = .idle ∨ s.phase = .ended ∨ ∃ total pending, s.phase = .terminal total pending := by
  cases settled : s.ctx.settled with
  | false =>
    obtain ⟨-, -, -, phase⟩ := held.reading settled
    rcases phase with idle | ended
    · exact Or.inl idle
    · exact Or.inr (Or.inl ended)
  | true =>
    rcases held.settled settled with ⟨total, pending, terminal, -⟩ | ⟨idle, -⟩
    · exact Or.inr (Or.inr ⟨total, pending, terminal⟩)
    · exact Or.inl idle

/-- Settling stamps the request or charges its count. -/
private theorem Held.finish {bound : CapList} (capped : bound.caps ≠ []) {s : State} (held : Held bound s)
    (waiting : s.phase = .idle ∨ s.phase = .ended) (events : List Event) (abort : Option Disposition) :
    Held bound { s with
      ctx := (settleStream s.ctx events abort).1
      phase := (settleStream s.ctx events abort).2 } := by
  by_cases settled : s.ctx.settled = true
  · have same : settleStream s.ctx events abort = (s.ctx, .idle) := by rw [settleStream, if_pos settled]
    rw [same]
    rcases held.settled settled with ⟨total, pending, terminal, -⟩ | stamped
    · simp [terminal] at waiting
    · refine ⟨held.caps, held.tap, fun unsettled => ?_, fun _ => Or.inr ⟨rfl, stamped.2⟩⟩
      exact absurd (settled.symm.trans unsettled) (by decide)
  · have opened : s.ctx.settled = false := by simpa using settled
    have nonempty : s.ctx.caps.caps ≠ [] := by rw [held.caps]; exact capped
    rcases counted : authTotal (events.foldl Meter.observe s.ctx.meter).report with - | total
    · have stamps : (settleStream s.ctx events abort).2 = .idle ∧ (settleStream s.ctx events abort).1.settled = true ∧
          (settleStream s.ctx events abort).1.meter = events.foldl Meter.observe s.ctx.meter ∧
            (settleStream s.ctx events abort).1.error.isSome = true ∧
              (settleStream s.ctx events abort).1.tap = s.ctx.tap := by
        simp [settleStream, opened, held.tap, counted, nonempty]
      obtain ⟨idle, done, meter, error, tap⟩ := stamps
      refine ⟨(settleStream_caps s.ctx events abort).1.trans held.caps, tap.trans held.tap, ?_, fun _ => Or.inr ?_⟩
      · intro unsettled
        rw [done] at unsettled
        cases unsettled
      · exact ⟨idle, by rw [meter]; exact counted, error⟩
    · have charges : (settleStream s.ctx events abort).2 = .terminal total s.ctx.caps.caps ∧
          (settleStream s.ctx events abort).1.settled = true ∧
            (settleStream s.ctx events abort).1.meter = events.foldl Meter.observe s.ctx.meter ∧
              (settleStream s.ctx events abort).1.tap = s.ctx.tap := by
        simp [settleStream, opened, held.tap, counted]
      obtain ⟨terminal, done, meter, tap⟩ := charges
      refine ⟨(settleStream_caps s.ctx events abort).1.trans held.caps, tap.trans held.tap, ?_, fun _ => Or.inl ?_⟩
      · intro unsettled
        rw [done] at unsettled
        cases unsettled
      · exact ⟨total, _, terminal, by rw [meter]; exact counted⟩

private theorem held_step {bound : CapList} (capped : bound.caps ≠ []) :
    ∀ s action t, Held bound s → HoldsBody action → step s action = some t → Held bound t := by
  intro s action t held holds made
  cases step_moved made with
  | @chunk events endOfStream idle opened =>
    obtain ⟨meter, uncut, last, -⟩ := held.reading opened
    obtain rfl : events = [] := holds
    have zero : Meter.new.estimatedOutputTokens = 0 := by decide
    have nonempty : s.ctx.caps.caps ≠ [] := by rw [held.caps]; exact capped
    have unchanged : filterChunk s.ctx [] endOfStream = (s.ctx, afterCharges endOfStream) := by
      have same : { s.ctx with meter := .new, cut := false, lastMeteredEst := 0 } = s.ctx := by
        rw [← meter, ← uncut, ← last]
      simp [filterChunk, uncut, observeAll, meter, zero, nonempty, same]
    rw [unchanged]
    refine ⟨held.caps, held.tap, fun _ => ⟨meter, uncut, last, ?_⟩, fun settled => ?_⟩
    · cases endOfStream
      · exact Or.inl rfl
      · exact Or.inr rfl
    · exact absurd settled (by simp [opened])
  | tripped charging outcome =>
    have phases := held.phases
    simp [charging] at phases
  | paid charging outcome =>
    have phases := held.phases
    simp [charging] at phases
  | @counted id terms rest charged nowUnix charging =>
    refine ⟨held.caps, held.tap, fun unsettled => ?_, fun settled => Or.inl ?_⟩
    · have phase := (held.reading unsettled).2.2.2
      simp [charging] at phase
    · rcases held.settled settled with ⟨total, pending, terminal, counted⟩ | ⟨idle, -⟩
      · rw [charging] at terminal
        obtain ⟨rfl, -⟩ := Phase.terminal.inj terminal
        exact ⟨charged, rest, rfl, counted⟩
      · simp [charging] at idle
  | @finished events abort waiting finishes => exact held.finish capped waiting events abort
  | reconciled settling =>
    have phases := held.phases
    simp [settling] at phases
  | other called => exact ⟨held.caps, held.tap, held.reading, held.settled⟩

/-- A response under the terminal-parse tap that has been settled: the count of its body is charged to every spender
    that is left, or the request is stamped. -/
theorem document_settled {bound : CapList} (capped : bound.caps ≠ []) {budgets : NodeBudgets} {wasmPerEvent : Bool}
    {actions : List Action} {t : State} (holds : ∀ action ∈ actions, HoldsBody action)
    (executed : Runs.exec step (.startDocument budgets bound wasmPerEvent) actions = some t) :
    Held bound t :=
  Runs.exec_preserves_along (fun s action t held holds made => held_step capped s action t held holds made)
    (startDocument_held budgets bound wasmPerEvent) (Runs.along_of_forall fun _ => holds) executed

/-- The charges to a spender. -/
def chargesTo (id : CapId) (charges : List (CapId × Nat)) : List Int :=
  charges.map fun charge => if charge.1 = id then (charge.2 : Int) else 0

/-- One count for each of distinct spenders is one count for each of them. -/
private theorem chargeEach_sum {caps : List (CapId × CapTerms)} (distinct : (caps.map (·.1)).Nodup) {id : CapId}
    (listed : id ∈ caps.map (·.1)) (count : Nat) : (chargesTo id (chargeEach count caps)).sum = count := by
  induction caps with
  | nil => cases listed
  | cons cap rest ih =>
    rw [List.map_cons, List.nodup_cons] at distinct
    show (if cap.1 = id then (count : Int) else 0) + (chargesTo id (chargeEach count rest)).sum = count
    by_cases mine : cap.1 = id
    · have none : (chargesTo id (chargeEach count rest)).sum = 0 := by
        refine List.sum_eq_zero fun charge inside => ?_
        simp only [chargesTo, chargeEach, List.map_map, List.mem_map] at inside
        obtain ⟨other, member, rfl⟩ := inside
        have different : other.1 ≠ id := by
          intro same
          rw [mine, ← same] at distinct
          exact distinct.1 (List.mem_map_of_mem (f := (·.1)) member)
        simp [different]
      rw [if_pos mine, none, add_zero]
    · have later : id ∈ rest.map (·.1) := (List.mem_cons.mp listed).resolve_left (Ne.symm mine)
      rw [if_neg mine, ih distinct.2 later, zero_add]

/-- A response under the terminal-parse tap bills each of its spenders the count of its body. -/
theorem netSpend_document {bound : CapList} {id : CapId} {budgets : NodeBudgets} {wasmPerEvent : Bool}
    {actions : List Action} {t : State} {total : Nat} (listed : id ∈ bound.caps.map (·.1))
    (holds : ∀ action ∈ actions, HoldsBody action)
    (executed : Runs.exec step (.startDocument budgets bound wasmPerEvent) actions = some t)
    (settled : t.phase = .terminal total []) :
    netSpend id (.startDocument budgets bound wasmPerEvent) actions = total := by
  have capped : bound.caps ≠ [] := by
    rintro none
    simp [none] at listed
  have counted := (counts_charged rfl executed).2 total (by rw [settled]; rfl)
  have each : Runs.trace step (billed id) (.startDocument budgets bound wasmPerEvent) actions =
      Runs.trace step (fun s a t =>
        (chargesTo id (authoritativeCharge s a t)).sum) (.startDocument budgets bound wasmPerEvent) actions := by
    refine Runs.trace_congr_along (fun s action t held holds made => held_step capped s action t held holds made)
      (fun s action t held _ _ => ?_) (startDocument_held budgets bound wasmPerEvent)
      (Runs.along_of_forall fun _ => holds) executed
    cases action with
    | charge nowUnix =>
      rcases held.phases with idle | ended | ⟨charged, pending, terminal⟩
      · simp [billed, authoritativeCharge, chargesTo, idle]
      · simp [billed, authoritativeCharge, chargesTo, ended]
      · cases pending <;> simp [billed, authoritativeCharge, chargesTo, terminal]
    | settle nowUnix =>
      rcases held.phases with idle | ended | ⟨charged, pending, terminal⟩
      · simp [billed, authoritativeCharge, chargesTo, idle, Phase.nextSettlement]
      · simp [billed, authoritativeCharge, chargesTo, ended, Phase.nextSettlement]
      · simp [billed, authoritativeCharge, chargesTo, terminal, Phase.nextSettlement]
    | chunk events endOfStream => rfl
    | finish events abort => rfl
    | other op => rfl
  calc netSpend id (.startDocument budgets bound wasmPerEvent) actions
      = (chargesTo id (authoritativeCharges (.startDocument budgets bound wasmPerEvent) actions)).sum := by
        rw [netSpend, each, authoritativeCharges, chargesTo, List.map_flatten, List.sum_flatten, List.map_map,
          Runs.trace_map]
        rfl
    _ = (chargesTo id (chargeEach total bound.caps)).sum := by rw [counted]; rfl
    _ = total := chargeEach_sum bound.distinct listed total

end SmallGateway.Stream
