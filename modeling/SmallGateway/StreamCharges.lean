import SmallGateway.Metering
import SmallGateway.NodeBudgets

/-!
What one stream charges its capped spenders: admission (`gatewayd/src/proxy_stream.rs`), the per-chunk meter
and charge of the response filter and the settlement at the stream's end (`gatewayd/src/proxy.rs`).

Every call on the node's ledger takes its lock once, so between two calls of this stream any other request may
call it. A run is therefore a list of single calls (`Action`): this stream's own, in the order the filter
makes them, and anything of others. `chargeCapsAndCut` and `settleAndLog` are what the calls amount to when
nothing comes between them (`charges_uninterrupted`, `settles_uninterrupted`).
-/

namespace SmallGateway.Stream

open NodeBudgets (Lifetime)

/-- The capped spenders of a request with their terms. The attribution keys of a request are sorted and
    made distinct before they are resolved, so no spender occurs twice. -/
structure CapList where
  caps : List (CapId × CapTerms)
  distinct : (caps.map (·.1)).Nodup

/-- Why a request was refused at admission. -/
structure CapDenial where
  id : CapId
  cap : Nat
  spent : Nat
  deriving DecidableEq, Repr

/-- Admits a request for each of its capped spenders in turn, up to the first that denies. -/
def admitCaps (budgets : NodeBudgets) (caps : List (CapId × CapTerms)) (nowUnix : Nat) :
    Except CapDenial (List (CapId × CapTerms)) × NodeBudgets :=
  match caps with
  | [] => (.ok [], budgets)
  | (id, terms) :: rest =>
    match budgets.admitRequest id (some terms) nowUnix with
    | (.deny cap, budgets) => (.error ⟨id, cap, budgets.spentOf id⟩, budgets)
    | (_, budgets) =>
      match admitCaps budgets rest nowUnix with
      | (.ok admitted, budgets) => (.ok ((id, terms) :: admitted), budgets)
      | (.error denial, budgets) => (.error denial, budgets)

/-- Charges a delta to each capped spender in order and stops at the first that crosses its bound. -/
def chargeCapsAndCut (budgets : NodeBudgets) (caps : List (CapId × CapTerms)) (delta nowUnix : Nat) :
    Option (CapId × Nat) × NodeBudgets :=
  if delta = 0 then (none, budgets)
  else
    match caps with
    | [] => (none, budgets)
    | (id, terms) :: rest =>
      match budgets.meter id (some terms) delta nowUnix with
      | (.cut id cap, _, budgets) => (some (id, cap), budgets)
      | (.continue, _, budgets) => chargeCapsAndCut budgets rest delta nowUnix

/-- Which tap the head of the response selected. -/
inductive TapMode where
  | stream
  | jsonTerminal
  deriving DecidableEq, Repr

/-- How a response ended. -/
inductive Disposition where
  | completedFrame
  | completedNoFrame
  | clientAbort
  | upstreamCut
  | gatewayCut
  deriving DecidableEq, Repr

/-- What a request carries from one chunk of its response to the next. -/
structure ReqCtx where
  meter : Meter
  caps : CapList
  lastMeteredEst : Nat
  cut : Bool
  tap : Option TapMode
  wasmPerEvent : Bool
  settled : Bool
  disposition : Option Disposition
  error : Option String

/-- A request whose response is about to be read. -/
def ReqCtx.start (caps : CapList) (tap : Option TapMode) (wasmPerEvent : Bool) : ReqCtx :=
  ⟨.new, caps, 0, false, tap, wasmPerEvent, false, none, none⟩

/-- Where the stream is between its calls on the ledger. -/
inductive Phase where
  /-- Waiting for the next chunk. -/
  | idle
  /-- Charging a chunk's delta to the spenders that are left. -/
  | charging (delta : Nat) (pending : List (CapId × CapTerms)) (endOfStream : Bool)
  /-- The last chunk is charged; settlement follows. -/
  | ended
  /-- Reconciling an estimate for the spenders that are left. -/
  | settling (estimated : Nat) (authoritative : Option Nat) (pending : List (CapId × CapTerms))
  /-- Charging the count of a response that was not streamed to the spenders that are left. -/
  | terminal (charged : Nat) (pending : List (CapId × CapTerms))
  deriving DecidableEq

/-- The node's ledger and this stream. -/
structure State where
  budgets : NodeBudgets
  ctx : ReqCtx
  phase : Phase

/-- Feeds the events of a chunk to the meter, and asks the bound modules about each event until one of them
    cuts. An event comes with the answer the modules would give. -/
def observeAll (wasmPerEvent : Bool) (meter : Meter) :
    List (Event × Option String) → Meter × Option String
  | [] => (meter, none)
  | (event, answer) :: rest =>
    let meter := meter.observe event
    match if wasmPerEvent then answer else none with
    | some reason => ((rest.map (·.1)).foldl Meter.observe meter, some reason)
    | none => observeAll wasmPerEvent meter rest

/-- Where a chunk is left when its spenders have been charged. -/
def afterCharges (endOfStream : Bool) : Phase := if endOfStream then .ended else .idle

/-- The spenders left to charge, or what follows when there are none. -/
def chargePhase (delta : Nat) (pending : List (CapId × CapTerms)) (endOfStream : Bool) : Phase :=
  if pending = [] then afterCharges endOfStream else .charging delta pending endOfStream

/-- The response filter up to its first call on the ledger. After a cut a chunk tears the session down,
    except that the last one is still fed to the meter; a cut by a module keeps the chunk from being
    charged. -/
def filterChunk (ctx : ReqCtx) (events : List (Event × Option String)) (endOfStream : Bool) :
    ReqCtx × Phase :=
  if ctx.cut && !endOfStream then (ctx, .idle)
  else
    let (meter, reason) := observeAll ctx.wasmPerEvent ctx.meter events
    let ctx := { ctx with meter, cut := ctx.cut || reason.isSome }
    if ctx.caps.caps ≠ [] ∧ ctx.cut = false then
      let est := ctx.meter.estimatedOutputTokens
      let delta := est - ctx.lastMeteredEst
      ({ ctx with lastMeteredEst := est },
        if delta = 0 then afterCharges endOfStream else chargePhase delta ctx.caps.caps endOfStream)
    else (ctx, afterCharges endOfStream)

/-- A terminal event that says the gateway could not read the body. -/
def gatewayHole : Event → Option String
  | .error code _ =>
    if code ∈ ["json_body_overflow", "json_body_parse", "json_body_shape"] then
      some ("meter_degraded: " ++ code)
    else none
  | _ => none

/-- The billable count of a report, absent when neither count was reported. -/
def authTotal (report : MeterReport) : Option Nat :=
  match report.authoritativeInputTokens, report.authoritativeOutputTokens with
  | none, none => none
  | input, output => some (saturatingAdd (input.getD 0) (output.getD 0))

/-- How the response ended: a cut of the gateway first, then what the caller observed, then whether a usage
    frame landed. -/
def dispositionOf (cut : Bool) (abort : Option Disposition) (report : MeterReport) : Disposition :=
  if cut then .gatewayCut
  else
    match abort with
    | some disposition => disposition
    | none =>
      if report.authoritativeInputTokens.isSome || report.authoritativeOutputTokens.isSome then
        .completedFrame
      else .completedNoFrame

/-- The settlement up to its first call on the ledger. It runs once. -/
def settleStream (ctx : ReqCtx) (finish : List Event) (abort : Option Disposition) : ReqCtx × Phase :=
  if ctx.settled then (ctx, .idle)
  else
    let meter := finish.foldl Meter.observe ctx.meter
    let error := (finish.filterMap gatewayHole).getLast?.or ctx.error
    let report := meter.report
    let ctx := { ctx with
      settled := true, meter, error, disposition := some (dispositionOf ctx.cut abort report) }
    match ctx.tap with
    | some .jsonTerminal =>
      match authTotal report with
      | some total => (ctx, .terminal total ctx.caps.caps)
      | none =>
        ({ ctx with
            error := if ctx.caps.caps ≠ [] then
                ctx.error.or (some "meter_degraded: no_usage_on_capped_route")
              else ctx.error },
          .idle)
    | _ =>
      (ctx, .settling meter.estimatedOutputTokens report.authoritativeOutputTokens ctx.caps.caps)

/-- One step of a run: a chunk reaches the filter, the stream makes its next call on the ledger, the stream
    ends, or another request calls the ledger. The events of `finish` are those the tap emits at the end; a
    tap of a provider stream has none. -/
inductive Action where
  | chunk (events : List (Event × Option String)) (endOfStream : Bool)
  | charge (nowUnix : Nat)
  | finish (events : List Event) (abort : Option Disposition)
  | settle (nowUnix : Nat)
  | other (op : NodeBudgets.Op)

def Action.isOther : Action → Bool
  | .other _ => true
  | _ => false

/-- The end of the stream settles in the filter; every other end settles when the request is logged. -/
def Phase.endsWith : Phase → Option Disposition → Bool
  | .ended, abort => abort.isNone
  | .idle, abort => abort.isSome
  | _, _ => false

/-- One spender's part of the settlement: with no usage frame the estimate stands. -/
def settleOne (budgets : NodeBudgets) (id : CapId) (estimated : Nat) (authoritative : Option Nat)
    (nowUnix : Nat) : NodeBudgets :=
  match authoritative with
  | none => budgets
  | some auth => budgets.settle id estimated auth nowUnix

def step (s : State) : Action → Option State
  | .chunk events endOfStream =>
    match s.phase with
    | .idle =>
      if s.ctx.settled then none
      else
        let (ctx, phase) := filterChunk s.ctx events endOfStream
        some { s with ctx, phase }
    | _ => none
  | .charge nowUnix =>
    match s.phase with
    | .charging delta ((id, terms) :: rest) endOfStream =>
      match s.budgets.meter id (some terms) delta nowUnix with
      | (.cut _ _, _, budgets) => some ⟨budgets, { s.ctx with cut := true }, afterCharges endOfStream⟩
      | (.continue, _, budgets) => some { s with budgets, phase := chargePhase delta rest endOfStream }
    | .terminal charged ((id, terms) :: rest) =>
      some { s with
        budgets := (s.budgets.meter id (some terms) charged nowUnix).2.2
        phase := .terminal charged rest }
    | _ => none
  | .finish events abort =>
    if s.phase.endsWith abort = true ∧ (s.ctx.tap ≠ some .jsonTerminal → events = []) then
      let (ctx, phase) := settleStream s.ctx events abort
      some { s with ctx, phase }
    else none
  | .settle nowUnix =>
    match s.phase with
    | .settling estimated authoritative ((id, _) :: rest) =>
      some { s with
        budgets := settleOne s.budgets id estimated authoritative nowUnix
        phase := .settling estimated authoritative rest }
    | _ => none
  | .other op => (s.budgets.step op).map fun budgets => { s with budgets }

/-! ### What a step can do -/

/-- What one step can do, under either tap. -/
inductive Moved (s : State) : Action → State → Prop where
  | chunk {events : List (Event × Option String)} {endOfStream : Bool} (idle : s.phase = .idle)
      (unsettled : s.ctx.settled = false) :
      Moved s (.chunk events endOfStream)
        { s with ctx := (filterChunk s.ctx events endOfStream).1, phase := (filterChunk s.ctx events endOfStream).2 }
  /-- A part of the estimate is charged past its spender's bound. -/
  | tripped {id : CapId} {terms : CapTerms} {rest : List (CapId × CapTerms)} {delta nowUnix : Nat}
      {endOfStream : Bool} (charging : s.phase = .charging delta ((id, terms) :: rest) endOfStream)
      (outcome : (s.budgets.meter id (some terms) delta nowUnix).1.isCut = true) :
      Moved s (.charge nowUnix)
        ⟨(s.budgets.meter id (some terms) delta nowUnix).2.2, { s.ctx with cut := true }, afterCharges endOfStream⟩
  /-- A part of the estimate is charged within its spender's bound. -/
  | paid {id : CapId} {terms : CapTerms} {rest : List (CapId × CapTerms)} {delta nowUnix : Nat}
      {endOfStream : Bool} (charging : s.phase = .charging delta ((id, terms) :: rest) endOfStream)
      (outcome : (s.budgets.meter id (some terms) delta nowUnix).1.isCut = false) :
      Moved s (.charge nowUnix)
        { s with
          budgets := (s.budgets.meter id (some terms) delta nowUnix).2.2
          phase := chargePhase delta rest endOfStream }
  /-- The count of a body is charged. -/
  | counted {id : CapId} {terms : CapTerms} {rest : List (CapId × CapTerms)} {charged nowUnix : Nat}
      (charging : s.phase = .terminal charged ((id, terms) :: rest)) :
      Moved s (.charge nowUnix)
        { s with
          budgets := (s.budgets.meter id (some terms) charged nowUnix).2.2
          phase := .terminal charged rest }
  | finished {events : List Event} {abort : Option Disposition} (waiting : s.phase = .idle ∨ s.phase = .ended)
      (finishes : s.ctx.tap ≠ some .jsonTerminal → events = []) :
      Moved s (.finish events abort)
        { s with ctx := (settleStream s.ctx events abort).1, phase := (settleStream s.ctx events abort).2 }
  | reconciled {estimated : Nat} {authoritative : Option Nat} {id : CapId} {terms : CapTerms}
      {rest : List (CapId × CapTerms)} {nowUnix : Nat}
      (settling : s.phase = .settling estimated authoritative ((id, terms) :: rest)) :
      Moved s (.settle nowUnix)
        { s with
          budgets := settleOne s.budgets id estimated authoritative nowUnix
          phase := .settling estimated authoritative rest }
  | other {op : NodeBudgets.Op} {budgets : NodeBudgets} (called : s.budgets.step op = some budgets) :
      Moved s (.other op) { s with budgets }

theorem step_moved {s t : State} {action : Action} (stepped : step s action = some t) : Moved s action t := by
  cases action with
  | chunk events endOfStream =>
    simp only [step] at stepped
    split at stepped
    case h_2 => cases stepped
    case h_1 idle =>
      by_cases settled : s.ctx.settled = true
      · rw [if_pos settled] at stepped
        cases stepped
      · rw [if_neg settled] at stepped
        obtain rfl := Option.some.inj stepped
        exact .chunk idle (by simpa using settled)
  | charge nowUnix =>
    simp only [step] at stepped
    split at stepped
    case h_1 delta id terms rest endOfStream charging =>
      rcases metered : s.budgets.meter id (some terms) delta nowUnix with ⟨outcome, alerts, after⟩
      have budgets : after = (s.budgets.meter id (some terms) delta nowUnix).2.2 := by rw [metered]
      rw [metered] at stepped
      cases outcome with
      | cut other cap =>
        obtain rfl := Option.some.inj stepped
        rw [budgets]
        exact .tripped charging (by rw [metered]; rfl)
      | «continue» =>
        obtain rfl := Option.some.inj stepped
        rw [budgets]
        exact .paid charging (by rw [metered]; rfl)
    case h_2 charged id terms rest charging =>
      obtain rfl := Option.some.inj stepped
      exact .counted charging
    case h_3 => cases stepped
  | finish events abort =>
    simp only [step] at stepped
    split at stepped
    case isFalse => cases stepped
    case isTrue enabled =>
      obtain ⟨ends, finishes⟩ := enabled
      obtain rfl := Option.some.inj stepped
      refine .finished ?_ finishes
      cases phase : s.phase <;> simp [phase, Phase.endsWith] at ends ⊢
  | settle nowUnix =>
    simp only [step] at stepped
    split at stepped
    case h_1 estimated authoritative id terms rest settling =>
      obtain rfl := Option.some.inj stepped
      exact .reconciled settling
    case h_2 => cases stepped
  | other op =>
    obtain ⟨budgets, called, rfl⟩ := Option.map_eq_some_iff.mp stepped
    exact .other called

/-- The tokens on a spender's counter. -/
def State.spentOf (s : State) (id : CapId) : Nat := s.budgets.spentOf id

/-- A provider stream about to be read, over a ledger. -/
def State.start (budgets : NodeBudgets) (caps : CapList) (wasmPerEvent : Bool) : State :=
  ⟨budgets, .start caps (some .stream) wasmPerEvent, .idle⟩

/-! ### The calls without interruption -/

/-- The charges of a chunk, made one after the other, are `chargeCapsAndCut`. -/
theorem charges_uninterrupted (budgets : NodeBudgets) (ctx : ReqCtx) (caps : List (CapId × CapTerms))
    {delta : Nat} (owed : delta ≠ 0) (endOfStream : Bool) (nowUnix : Nat) :
    ∃ calls, Runs.exec step ⟨budgets, ctx, chargePhase delta caps endOfStream⟩
        (List.replicate calls (.charge nowUnix)) =
      some ⟨(chargeCapsAndCut budgets caps delta nowUnix).2,
        { ctx with cut := ctx.cut || (chargeCapsAndCut budgets caps delta nowUnix).1.isSome },
        afterCharges endOfStream⟩ := by
  induction caps generalizing budgets with
  | nil => exact ⟨0, by simp [chargeCapsAndCut, owed, chargePhase]⟩
  | cons cap rest ih =>
    obtain ⟨id, terms⟩ := cap
    rcases metered : budgets.meter id (some terms) delta nowUnix with ⟨outcome, alerts, after⟩
    cases outcome with
    | cut other cap =>
      refine ⟨1, ?_⟩
      simp [Runs.exec, step, chargePhase, chargeCapsAndCut, owed, metered]
    | «continue» =>
      obtain ⟨calls, others⟩ := ih after
      have stepped : step ⟨budgets, ctx, chargePhase delta ((id, terms) :: rest) endOfStream⟩
          (.charge nowUnix) = some ⟨after, ctx, chargePhase delta rest endOfStream⟩ := by
        simp [step, chargePhase, metered]
      refine ⟨calls + 1, ?_⟩
      rw [List.replicate_succ, Runs.exec_cons]
      refine ⟨_, stepped, ?_⟩
      simpa [chargeCapsAndCut, owed, metered] using others

/-- The calls of a settlement, made one after the other, are `settleAndLog`. -/
theorem settles_uninterrupted (budgets : NodeBudgets) (ctx : ReqCtx) (caps : List (CapId × CapTerms))
    (estimated : Nat) (authoritative : Option Nat) (nowUnix : Nat) :
    Runs.exec step ⟨budgets, ctx, .settling estimated authoritative caps⟩
        (List.replicate caps.length (.settle nowUnix)) =
      some ⟨budgets.settleAndLog caps estimated authoritative nowUnix, ctx,
        .settling estimated authoritative []⟩ := by
  induction caps generalizing budgets with
  | nil => cases authoritative <;> rfl
  | cons cap rest ih =>
    rw [List.length_cons, List.replicate_succ, Runs.exec_cons]
    refine ⟨_, rfl, ?_⟩
    rw [ih]
    cases authoritative <;> rfl

/-! ### What a step of a provider stream does -/

theorem observeAll_meter (wasmPerEvent : Bool) (meter : Meter) (events : List (Event × Option String)) :
    (observeAll wasmPerEvent meter events).1 = (events.map (·.1)).foldl Meter.observe meter := by
  induction events generalizing meter with
  | nil => rfl
  | cons event rest ih =>
    obtain ⟨event, answer⟩ := event
    simp only [observeAll, List.map_cons, List.foldl_cons]
    cases (if wasmPerEvent then answer else none) with
    | none => exact ih (meter.observe event)
    | some reason => rfl

/-- The bound modules cut a chunk when they are asked and one event has a cutting answer. -/
theorem observeAll_cut (wasmPerEvent : Bool) (meter : Meter) (events : List (Event × Option String)) :
    (observeAll wasmPerEvent meter events).2.isSome = true ↔
      wasmPerEvent = true ∧ ∃ event ∈ events, event.2.isSome = true := by
  induction events generalizing meter with
  | nil => simp [observeAll]
  | cons event rest ih =>
    obtain ⟨event, answer⟩ := event
    cases wasmPerEvent with
    | false => simp [observeAll, ih]
    | true =>
      cases answer with
      | some reason => simp [observeAll]
      | none => simp [observeAll, ih]

/-- The spenders the stream still has to call the ledger for. -/
def Phase.pending : Phase → List (CapId × CapTerms)
  | .charging _ pending _ => pending
  | .settling _ _ pending => pending
  | .terminal _ pending => pending
  | _ => []

/-- What holds of a provider stream between its calls. -/
structure Coherent (bound : CapList) (s : State) : Prop where
  caps : s.ctx.caps = bound
  tap : s.ctx.tap = some .stream
  pending : s.phase.pending <:+ bound.caps
  unsettled : (∀ estimated authoritative pending,
    s.phase ≠ .settling estimated authoritative pending) → s.ctx.settled = false
  settling : ∀ estimated authoritative pending, s.phase = .settling estimated authoritative pending →
    estimated = s.ctx.meter.estimatedOutputTokens ∧ authoritative = s.ctx.meter.authoritativeOutput
  streamed : ∀ charged pending, s.phase ≠ .terminal charged pending
  owed : ∀ delta pending endOfStream, s.phase = .charging delta pending endOfStream → delta ≠ 0

/-- The meter after the events of a chunk. -/
def ReqCtx.fed (ctx : ReqCtx) (events : List (Event × Option String)) : Meter :=
  (events.map (·.1)).foldl Meter.observe ctx.meter

/-- The tokens of a chunk that are not charged yet. -/
def ReqCtx.delta (ctx : ReqCtx) (events : List (Event × Option String)) : Nat :=
  (ctx.fed events).estimatedOutputTokens - ctx.lastMeteredEst

/-- A bound module cuts the chunk. -/
def ReqCtx.ModuleCuts (ctx : ReqCtx) (events : List (Event × Option String)) : Prop :=
  ctx.wasmPerEvent = true ∧ ∃ event ∈ events, event.2.isSome = true

/-- The steps of a provider stream and of the other requests of its node. -/
inductive Stepped (s : State) : Action → State → Prop where
  /-- After a cut a chunk only tears the session down. -/
  | torn {events : List (Event × Option String)} (idle : s.phase = .idle) (cut : s.ctx.cut = true) :
      Stepped s (.chunk events false) s
  /-- A chunk is fed to the meter and not charged: the stream is cut, by a module in this chunk or before. -/
  | uncharged {events : List (Event × Option String)} {endOfStream : Bool} (idle : s.phase = .idle)
      (fed : (s.ctx.cut && !endOfStream) = false)
      (cut : s.ctx.cut = true ∨ s.ctx.ModuleCuts events) :
      Stepped s (.chunk events endOfStream)
        { s with
          ctx := { s.ctx with meter := s.ctx.fed events, cut := true }
          phase := afterCharges endOfStream }
  /-- A chunk is fed to the meter and its new tokens are charged. -/
  | charged {events : List (Event × Option String)} {endOfStream : Bool} (idle : s.phase = .idle)
      (uncut : s.ctx.cut = false) (allowed : ¬ s.ctx.ModuleCuts events) :
      Stepped s (.chunk events endOfStream)
        { s with
          ctx := { s.ctx with
            meter := s.ctx.fed events
            lastMeteredEst := (s.ctx.fed events).estimatedOutputTokens }
          phase := if s.ctx.delta events = 0 then afterCharges endOfStream
            else chargePhase (s.ctx.delta events) s.ctx.caps.caps endOfStream }
  /-- A charge passes its spender's bound: the stream is cut and the spenders after it are not charged. -/
  | tripped {id : CapId} {terms : CapTerms} {rest : List (CapId × CapTerms)} {delta nowUnix : Nat}
      {endOfStream : Bool} (charging : s.phase = .charging delta ((id, terms) :: rest) endOfStream)
      (outcome : (s.budgets.meter id (some terms) delta nowUnix).1.isCut = true) :
      Stepped s (.charge nowUnix)
        ⟨(s.budgets.meter id (some terms) delta nowUnix).2.2, { s.ctx with cut := true },
          afterCharges endOfStream⟩
  /-- A charge stays within its spender's bound. -/
  | paid {id : CapId} {terms : CapTerms} {rest : List (CapId × CapTerms)} {delta nowUnix : Nat}
      {endOfStream : Bool} (charging : s.phase = .charging delta ((id, terms) :: rest) endOfStream)
      (outcome : (s.budgets.meter id (some terms) delta nowUnix).1.isCut = false) :
      Stepped s (.charge nowUnix)
        { s with
          budgets := (s.budgets.meter id (some terms) delta nowUnix).2.2
          phase := chargePhase delta rest endOfStream }
  /-- The stream ends, in whatever way. -/
  | finished {abort : Option Disposition} {error : Option String} {disposition : Disposition}
      (waiting : s.phase = .idle ∨ s.phase = .ended) :
      Stepped s (.finish [] abort)
        { s with
          ctx := { s.ctx with settled := true, error := error, disposition := some disposition }
          phase := .settling s.ctx.meter.estimatedOutputTokens s.ctx.meter.authoritativeOutput
            s.ctx.caps.caps }
  /-- One spender is settled. -/
  | reconciled {estimated : Nat} {authoritative : Option Nat} {id : CapId} {terms : CapTerms}
      {rest : List (CapId × CapTerms)} {nowUnix : Nat}
      (settling : s.phase = .settling estimated authoritative ((id, terms) :: rest)) :
      Stepped s (.settle nowUnix)
        { s with
          budgets := settleOne s.budgets id estimated authoritative nowUnix
          phase := .settling estimated authoritative rest }
  /-- Another request calls the ledger. -/
  | other {op : NodeBudgets.Op} {budgets : NodeBudgets} (called : s.budgets.step op = some budgets) :
      Stepped s (.other op) { s with budgets }

theorem step_stepped {bound : CapList} (capped : bound.caps ≠ []) {s t : State} {action : Action}
    (coherent : Coherent bound s) (stepped : step s action = some t) : Stepped s action t := by
  cases step_moved stepped with
  | @chunk events endOfStream idle open_ =>
    by_cases torn : (s.ctx.cut && !endOfStream) = true
    · obtain ⟨cut, more⟩ : s.ctx.cut = true ∧ endOfStream = false := by simpa using torn
      subst more
      have same : ({ s with
          ctx := (filterChunk s.ctx events false).1, phase := (filterChunk s.ctx events false).2 } : State) = s := by
        simp [filterChunk, cut, ← idle]
      rw [same]
      exact .torn idle cut
    · have meter := observeAll_meter s.ctx.wasmPerEvent s.ctx.meter events
      have asked := observeAll_cut s.ctx.wasmPerEvent s.ctx.meter events
      rcases observed : observeAll s.ctx.wasmPerEvent s.ctx.meter events with ⟨after, reason⟩
      rw [observed] at meter asked
      have fed : after = s.ctx.fed events := meter
      have nonempty : s.ctx.caps.caps ≠ [] := by rw [coherent.caps]; exact capped
      by_cases cut : (s.ctx.cut || reason.isSome) = true
      · have result : filterChunk s.ctx events endOfStream =
            ({ s.ctx with meter := s.ctx.fed events, cut := true }, afterCharges endOfStream) := by
          simp [filterChunk, torn, observed, cut, fed]
        rw [result]
        refine .uncharged idle (by simpa using torn) ?_
        rcases Bool.or_eq_true_iff.mp cut with before | now
        · exact Or.inl before
        · exact Or.inr (asked.mp now)
      · have uncut : s.ctx.cut = false ∧ reason = none := by simpa using cut
        have result : filterChunk s.ctx events endOfStream =
            ({ s.ctx with
                meter := s.ctx.fed events
                lastMeteredEst := (s.ctx.fed events).estimatedOutputTokens },
              if s.ctx.delta events = 0 then afterCharges endOfStream
              else chargePhase (s.ctx.delta events) s.ctx.caps.caps endOfStream) := by
          simp only [filterChunk, uncut, Bool.false_and, Bool.false_eq_true, if_false, observed, fed,
            nonempty, Option.isSome_none, Bool.or_false, ne_eq, not_false_eq_true, and_self, if_true]
          rfl
        rw [result]
        refine .charged idle uncut.1 fun cuts => ?_
        have now := asked.mpr cuts
        simp [uncut.2] at now
  | tripped charging outcome => exact .tripped charging outcome
  | paid charging outcome => exact .paid charging outcome
  | counted charging => exact absurd charging (coherent.streamed _ _)
  | @finished events abort waiting finishes =>
    obtain rfl : events = [] := finishes (by rw [coherent.tap]; decide)
    have open_ : s.ctx.settled = false :=
      coherent.unsettled fun estimated authoritative pending => by
        rcases waiting with idle | ended
        · simp [idle]
        · simp [ended]
    have result : settleStream s.ctx [] abort =
        ({ s.ctx with
            settled := true, error := s.ctx.error
            disposition := some (dispositionOf s.ctx.cut abort s.ctx.meter.report) },
          .settling s.ctx.meter.estimatedOutputTokens s.ctx.meter.authoritativeOutput
            s.ctx.caps.caps) := by
      simp [settleStream, open_, coherent.tap, Meter.report]
    rw [result]
    exact .finished waiting
  | reconciled settling => exact .reconciled settling
  | other called => exact .other called

theorem start_coherent (budgets : NodeBudgets) (bound : CapList) (wasmPerEvent : Bool) :
    Coherent bound (.start budgets bound wasmPerEvent) where
  caps := rfl
  tap := rfl
  pending := List.nil_suffix
  unsettled := fun _ => rfl
  settling := by rintro estimated authoritative pending ⟨⟩
  streamed := by rintro charged pending ⟨⟩
  owed := by rintro delta pending endOfStream ⟨⟩

/-- The spenders a stream still has to call the ledger for are distinct. -/
theorem Coherent.pending_distinct {bound : CapList} {s : State} (coherent : Coherent bound s) {head : CapId}
    {terms : CapTerms} {rest : List (CapId × CapTerms)}
    (pending : s.phase.pending = (head, terms) :: rest) : head ∉ rest.map (·.1) := by
  have left := coherent.pending
  rw [pending] at left
  have distinct := bound.distinct.sublist (left.sublist.map _)
  rw [List.map_cons, List.nodup_cons] at distinct
  exact distinct.1

/-- Between chunks nothing is pending. -/
private theorem Coherent.between {bound : CapList} {s t : State} (coherent : Coherent bound s)
    {endOfStream : Bool} (caps : t.ctx.caps = s.ctx.caps) (tap : t.ctx.tap = s.ctx.tap)
    (settled : t.ctx.settled = false) (phase : t.phase = afterCharges endOfStream) :
    Coherent bound t where
  caps := caps.trans coherent.caps
  tap := tap.trans coherent.tap
  pending := by cases endOfStream <;> simp [phase, afterCharges, Phase.pending]
  unsettled := fun _ => settled
  settling := by intro _ _ _ found; cases endOfStream <;> simp [phase, afterCharges] at found
  streamed := by intro _ _ found; cases endOfStream <;> simp [phase, afterCharges] at found
  owed := by intro _ _ _ found; cases endOfStream <;> simp [phase, afterCharges] at found

/-- While charging, what is left to charge is the end of the bound list. -/
private theorem Coherent.duringCharges {bound : CapList} {s t : State} (coherent : Coherent bound s)
    {delta : Nat} {pending : List (CapId × CapTerms)} {endOfStream : Bool}
    (caps : t.ctx.caps = s.ctx.caps) (tap : t.ctx.tap = s.ctx.tap) (settled : t.ctx.settled = false)
    (left : pending <:+ bound.caps) (owed : delta ≠ 0)
    (phase : t.phase = chargePhase delta pending endOfStream) : Coherent bound t := by
  by_cases nothing : pending = []
  · have finished : t.phase = afterCharges endOfStream := by
      rw [phase]
      simp [chargePhase, nothing]
    exact coherent.between caps tap settled finished
  · have charging : t.phase = .charging delta pending endOfStream := by
      rw [phase]
      simp [chargePhase, nothing]
    exact {
      caps := caps.trans coherent.caps
      tap := tap.trans coherent.tap
      pending := by simpa [charging, Phase.pending] using left
      unsettled := fun _ => settled
      settling := by intro _ _ _ found; simp [charging] at found
      streamed := by intro _ _ found; simp [charging] at found
      owed := by
        intro _ _ _ found
        rw [charging, Phase.charging.injEq] at found
        exact found.1 ▸ owed }

private theorem suffix_of_cons {α : Type*} {a : α} {rest all : List α} (suffix : a :: rest <:+ all) :
    rest <:+ all :=
  (List.suffix_cons a rest).trans suffix

theorem Stepped.coherent {bound : CapList} {s t : State} {action : Action} (coherent : Coherent bound s)
    (stepped : Stepped s action t) : Coherent bound t := by
  have unsettledIn : ∀ {phase : Phase}, s.phase = phase →
      (∀ estimated authoritative pending, phase ≠ .settling estimated authoritative pending) →
        s.ctx.settled = false := by
    rintro phase rfl other
    exact coherent.unsettled other
  cases stepped with
  | torn => exact coherent
  | uncharged idle fed cut =>
    exact coherent.between rfl rfl (unsettledIn idle fun _ _ _ => by simp) rfl
  | @charged events endOfStream idle uncut allowed =>
    have settled := unsettledIn idle fun _ _ _ => by simp
    by_cases nothing : s.ctx.delta events = 0
    · exact coherent.between rfl rfl settled (if_pos nothing)
    · refine coherent.duringCharges rfl rfl settled ?_ nothing (if_neg nothing)
      exact coherent.caps ▸ List.suffix_rfl
  | tripped charging outcome =>
    exact coherent.between rfl rfl (unsettledIn charging fun _ _ _ => by simp) rfl
  | paid charging outcome =>
    have left := coherent.pending
    rw [charging] at left
    exact coherent.duringCharges rfl rfl (unsettledIn charging fun _ _ _ => by simp)
      (suffix_of_cons left) (coherent.owed _ _ _ charging) rfl
  | finished waiting =>
    exact {
      caps := coherent.caps
      tap := coherent.tap
      pending := by rw [coherent.caps]; exact List.suffix_rfl
      unsettled := fun none => absurd rfl (none _ _ _)
      settling := by
        rintro estimated authoritative pending ⟨⟩
        exact ⟨rfl, rfl⟩
      streamed := by rintro charged pending ⟨⟩
      owed := by rintro delta pending endOfStream ⟨⟩ }
  | reconciled settling =>
    have left := coherent.pending
    rw [settling] at left
    exact {
      caps := coherent.caps
      tap := coherent.tap
      pending := suffix_of_cons left
      unsettled := fun none => absurd rfl (none _ _ _)
      settling := by
        rintro estimated authoritative pending ⟨⟩
        exact coherent.settling _ _ _ settling
      streamed := by rintro charged pending ⟨⟩
      owed := by rintro delta pending endOfStream ⟨⟩ }
  | other called =>
    exact ⟨coherent.caps, coherent.tap, coherent.pending, coherent.unsettled, coherent.settling,
      coherent.streamed, coherent.owed⟩

/-- A provider stream stays coherent. -/
theorem exec_coherent {bound : CapList} (capped : bound.caps ≠ []) {budgets : NodeBudgets} {wasmPerEvent : Bool}
    {actions : List Action} {t : State}
    (executed : Runs.exec step (.start budgets bound wasmPerEvent) actions = some t) : Coherent bound t :=
  Runs.exec_preserves (fun _ _ _ coherent made => (step_stepped capped coherent made).coherent coherent)
    (start_coherent budgets bound wasmPerEvent) executed

/-- The response has been settled, with all its spenders. -/
def State.Settled (s : State) : Prop := s.ctx.settled = true ∧ s.phase.pending = []

instance (s : State) : Decidable s.Settled := inferInstanceAs (Decidable (_ ∧ _))

/-- A provider stream that has been settled has reconciled its estimate with the count it last read. -/
theorem Coherent.settled_phase {bound : CapList} {s : State} (coherent : Coherent bound s) (settled : s.Settled) :
    s.phase = .settling s.ctx.meter.estimatedOutputTokens s.ctx.meter.authoritativeOutput [] := by
  obtain ⟨done, last⟩ := settled
  cases found : s.phase with
  | settling estimated authoritative pending =>
    rw [found] at last
    obtain ⟨rfl, rfl⟩ := coherent.settling _ _ _ found
    exact congrArg _ last
  | _ =>
    have unsettled := coherent.unsettled (by simp [found])
    rw [done] at unsettled
    cases unsettled

/-! ### Lifetime spenders -/

/-- The spenders of the request have lifetime terms and lifetime entries. -/
def LifetimeCaps (bound : CapList) (budgets : NodeBudgets) : Prop :=
  ∀ cap ∈ bound.caps, cap.2.window = none ∧ Lifetime cap.1 budgets

theorem LifetimeCaps.of_lifetime {bound : CapList} {before after : NodeBudgets}
    (lifetime : LifetimeCaps bound before)
    (kept : ∀ cap ∈ bound.caps, Lifetime cap.1 before → Lifetime cap.1 after) :
    LifetimeCaps bound after :=
  fun cap inside => ⟨(lifetime cap inside).1, kept cap inside (lifetime cap inside).2⟩

/-- Metering one of the request's spenders keeps all of them lifetime spenders. -/
theorem LifetimeCaps.meter {bound : CapList} {budgets : NodeBudgets}
    (lifetime : LifetimeCaps bound budgets) {id : CapId} {terms : CapTerms}
    (listed : (id, terms) ∈ bound.caps) (tokens nowUnix : Nat) :
    LifetimeCaps bound (budgets.meter id (some terms) tokens nowUnix).2.2 := by
  refine lifetime.of_lifetime fun cap _ entry => (entry.meter ?_ tokens nowUnix).1
  rintro - t ⟨⟩
  exact (lifetime _ listed).1

theorem settleOne_lifetime {budgets : NodeBudgets} {id other : CapId} (lifetime : Lifetime id budgets)
    (estimated : Nat) (authoritative : Option Nat) (nowUnix : Nat) :
    Lifetime id (settleOne budgets other estimated authoritative nowUnix) := by
  cases authoritative with
  | none => exact lifetime
  | some auth => exact lifetime.settle estimated auth nowUnix

/-- Another request's call names the spenders of this one with lifetime terms only. -/
def OthersLifetime (bound : CapList) : Action → Prop
  | .other op => ∀ cap ∈ bound.caps, op.LifetimeFor cap.1
  | _ => True

theorem Stepped.lifetimeCaps {bound : CapList} {s t : State} {action : Action}
    (coherent : Coherent bound s) (lifetime : LifetimeCaps bound s.budgets)
    (others : OthersLifetime bound action) (stepped : Stepped s action t) :
    LifetimeCaps bound t.budgets := by
  cases stepped with
  | torn => exact lifetime
  | uncharged idle fed cut => exact lifetime
  | charged idle uncut allowed => exact lifetime
  | tripped charging outcome =>
    have left := coherent.pending
    rw [charging] at left
    exact lifetime.meter (left.subset List.mem_cons_self) _ _
  | paid charging outcome =>
    have left := coherent.pending
    rw [charging] at left
    exact lifetime.meter (left.subset List.mem_cons_self) _ _
  | finished waiting => exact lifetime
  | reconciled settling =>
    exact lifetime.of_lifetime fun cap _ entry => settleOne_lifetime entry _ _ _
  | other called =>
    exact lifetime.of_lifetime fun cap inside entry =>
      NodeBudgets.lifetime_preserved cap.1 _ _ _ entry (others cap inside) called

/-- An admission that lists spenders has admitted the first of them, and the others on what that leaves. -/
theorem admitCaps_cons_ok {id : CapId} {terms : CapTerms} {rest admitted : List (CapId × CapTerms)}
    {budgets after : NodeBudgets} {nowUnix : Nat}
    (ok : admitCaps budgets ((id, terms) :: rest) nowUnix = (.ok admitted, after)) :
    ∃ tail, admitCaps (budgets.admitRequest id (some terms) nowUnix).2 rest nowUnix = (.ok tail, after) ∧
      admitted = (id, terms) :: tail := by
  simp only [admitCaps] at ok
  rcases verdict : budgets.admitRequest id (some terms) nowUnix with ⟨outcome, next⟩
  rw [verdict] at ok
  rcases tail : admitCaps next rest nowUnix with ⟨result, last⟩
  cases outcome with
  | deny cap =>
    obtain ⟨impossible, -⟩ := Prod.mk.inj ok
    cases impossible
  | allow =>
    simp only [tail] at ok
    cases result with
    | error denial => simp at ok
    | ok others =>
      obtain ⟨listed, rfl⟩ := Prod.mk.inj ok
      exact ⟨others, rfl, (Except.ok.inj listed).symm⟩
  | escalate =>
    simp only [tail] at ok
    cases result with
    | error denial => simp at ok
    | ok others =>
      obtain ⟨listed, rfl⟩ := Prod.mk.inj ok
      exact ⟨others, rfl, (Except.ok.inj listed).symm⟩

/-- Admission for a list of spenders lists exactly those, and gives each an entry. -/
theorem admitCaps_ok {caps admitted : List (CapId × CapTerms)} {budgets after : NodeBudgets}
    {nowUnix : Nat} (ok : admitCaps budgets caps nowUnix = (.ok admitted, after)) :
    admitted = caps ∧
      (∀ id, (∀ cap ∈ caps, cap.1 = id → cap.2.window = none) → Lifetime id budgets →
        Lifetime id after ∧ after.spentOf id = budgets.spentOf id) ∧
      (∀ id, NodeBudgets.Seen id budgets ∨ id ∈ caps.map (·.1) → NodeBudgets.Seen id after) := by
  induction caps generalizing budgets admitted with
  | nil =>
    obtain ⟨same, rfl⟩ := Prod.mk.inj ok
    obtain rfl := Except.ok.inj same
    refine ⟨rfl, fun id _ lifetime => ⟨lifetime, rfl⟩, fun id seen => ?_⟩
    simpa using seen
  | cons cap rest ih =>
    obtain ⟨id, terms⟩ := cap
    obtain ⟨tail, later, rfl⟩ := admitCaps_cons_ok ok
    obtain ⟨rfl, keeps, sees⟩ := ih later
    have entry : NodeBudgets.Seen id (budgets.admitRequest id (some terms) nowUnix).2 :=
      ⟨_, NodeBudgets.admit_entry budgets id (some terms) nowUnix⟩
    refine ⟨rfl, fun other window lifetime => ?_, fun other seen => sees other ?_⟩
    · have windowless : id = other → ∀ t, some terms = some t → t.window = none := by
        rintro same t ⟨⟩
        exact window _ List.mem_cons_self same
      have step := lifetime.admitRequest windowless nowUnix
      have rest := keeps other (fun cap inside => window cap (List.mem_cons_of_mem _ inside)) step.1
      exact ⟨rest.1, rest.2.trans step.2⟩
    · rcases seen with before | listed
      · exact Or.inl (NodeBudgets.seen_preserved other budgets (.admitRequest id (some terms) nowUnix) _ before rfl)
      · rcases List.mem_cons.mp listed with rfl | later
        · exact Or.inl entry
        · exact Or.inr later

/-- What the admission of a stream leaves in the ledger: each of its spenders has a lifetime entry. -/
structure Ready (bound : CapList) (budgets : NodeBudgets) : Prop where
  lifetime : LifetimeCaps bound budgets
  seen : ∀ cap ∈ bound.caps, NodeBudgets.Seen cap.1 budgets

theorem admitCaps_ready {bound : CapList} {budgets after : NodeBudgets} {nowUnix : Nat}
    {admitted : List (CapId × CapTerms)} (lifetime : LifetimeCaps bound budgets)
    (ok : admitCaps budgets bound.caps nowUnix = (.ok admitted, after)) : Ready bound after := by
  obtain ⟨-, keeps, sees⟩ := admitCaps_ok ok
  refine ⟨fun cap inside => ⟨(lifetime cap inside).1, ?_⟩, fun cap inside => ?_⟩
  · refine (keeps cap.1 (fun other listed _ => ?_) (lifetime cap inside).2).1
    exact (lifetime other listed).1
  · exact sees cap.1 (Or.inr (List.mem_map_of_mem inside))

theorem Ready.step {bound : CapList} {s t : State} {action : Action} (coherent : Coherent bound s)
    (ready : Ready bound s.budgets) (others : OthersLifetime bound action)
    (stepped : Stepped s action t) : Ready bound t.budgets := by
  refine ⟨stepped.lifetimeCaps coherent ready.lifetime others, fun cap inside => ?_⟩
  have seen := ready.seen cap inside
  cases stepped with
  | torn => exact seen
  | uncharged idle fed cut => exact seen
  | charged idle uncut allowed => exact seen
  | tripped charging outcome => exact seen.meter _ _ _ _
  | paid charging outcome => exact seen.meter _ _ _ _
  | finished waiting => exact seen
  | @reconciled estimated authoritative id terms rest nowUnix settling =>
    cases authoritative with
    | none => exact seen
    | some auth => exact seen.settle _ _ _ _
  | other called => exact NodeBudgets.seen_preserved cap.1 _ _ _ seen called

/-- What a charge does to the counter of a spender. -/
theorem LifetimeCaps.charge_spentOf {bound : CapList} {budgets : NodeBudgets}
    (lifetime : LifetimeCaps bound budgets) {id head : CapId} {terms : CapTerms}
    (listed : (head, terms) ∈ bound.caps) (inside : id ∈ bound.caps.map (·.1)) (tokens nowUnix : Nat) :
    (budgets.meter head (some terms) tokens nowUnix).2.2.spentOf id =
      if head = id then saturatingAdd (budgets.spentOf id) tokens else budgets.spentOf id := by
  obtain ⟨cap, member, rfl⟩ := List.mem_map.mp inside
  refine ((lifetime cap member).2.meter ?_ tokens nowUnix).2
  rintro - t ⟨⟩
  exact (lifetime _ listed).1

/-- What a settlement does to the counter of a spender. -/
theorem Ready.settle_spentOf {bound : CapList} {budgets : NodeBudgets} (ready : Ready bound budgets)
    {id : CapId} (inside : id ∈ bound.caps.map (·.1)) (head : CapId) (estimated auth nowUnix : Nat) :
    (settleOne budgets head estimated (some auth) nowUnix).spentOf id =
      if head = id then
        if auth ≥ estimated then saturatingAdd (budgets.spentOf id) (auth - estimated)
        else budgets.spentOf id - (estimated - auth)
      else budgets.spentOf id := by
  obtain ⟨cap, member, rfl⟩ := List.mem_map.mp inside
  obtain ⟨entry, found⟩ := ready.seen cap member
  by_cases same : head = cap.1
  · subst same
    rw [if_pos rfl]
    exact (ready.lifetime cap member).2.settle_spentOf found estimated auth nowUnix
  · rw [if_neg same]
    exact NodeBudgets.settle_spentOf_other estimated auth nowUnix (Ne.symm same)

end SmallGateway.Stream
