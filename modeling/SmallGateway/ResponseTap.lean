import SmallGateway.DocumentBilling
import SmallGateway.EventStream
import SmallGateway.JsonBody
import SmallGateway.Sse

/-!
The tap on a response, from the bytes that arrive to the calls on the node's ledger: the head decides how the body
is read (`decide_tap` in `gatewayd/src/proxy_support.rs` and `upstream_response_filter` in
`gatewayd/src/proxy.rs`), each chunk is read by the parser of its framing and the adapter of its dialect, and the
events go to the filter and the settlement of `SmallGateway.Stream`. `calls_exec` says that every run over bytes
is a run over events.
-/

namespace SmallGateway

/-- How the head of a response says its body is to be read. -/
inductive TapPlan where
  | stream
  | jsonTerminal
  /-- The body ought to be metered and cannot be read. -/
  | degraded (reason : String)
  /-- The body carries no usage. -/
  | notApplicable (reason : String)
  deriving DecidableEq

/-- The content type of the streams of a dialect. -/
def ProviderKind.streamContentType : ProviderKind → String
  | .bedrock => "application/vnd.amazon.eventstream"
  | _ => "text/event-stream"

def decideTap (status : Nat) (contentType contentEncoding : Option String) (kind : ProviderKind) : TapPlan :=
  let coding := (Text.trim (contentEncoding.getD "identity")).toLower
  if coding ≠ "" ∧ coding ≠ "identity" then
    .degraded "content-coded body; metering degraded (docs/11 D2)"
  else if ¬ (200 ≤ status ∧ status < 300) then .notApplicable "non-2xx response; unmetered error path"
  else
    let essence := String.ofList ((contentType.getD "").toList.takeWhile (· ≠ ';'))
    let ct := (Text.trim essence).toLower
    if ct = kind.streamContentType then .stream
    else if ct = "application/json" then .jsonTerminal
    else if ct = "text/event-stream" ∨ ct = "application/vnd.amazon.eventstream" then
      .degraded "stream content-type does not match the route's dialect"
    else .notApplicable "content-type carries no in-band usage; metering absent"

/-- What reads the bytes of a body. -/
inductive BodyTap where
  | sse (parser : SseParser) (adapter : Adapter)
  | frames (decoder : EventStream.FrameDecoder) (adapter : Adapter)
  | json (tap : JsonBodyTap)

/-- The adapter that is bound to a route of the dialect. -/
def ProviderKind.bodyTap : ProviderKind → BodyTap
  | .bedrock => .frames .new (newAdapter .bedrock)
  | kind => .sse .new kind.newAdapter

/-- A decoded frame as the adapter of its dialect reads it. -/
def EventStream.Frame.message (frame : EventStream.Frame) : Message :=
  .frame ⟨(frame.headers.lookup ":event-type").getD "", frame.payload⟩

namespace BodyTap

variable (json : JsonText) (crc32 : List UInt8 → Nat)

def feed (tap : BodyTap) (bytes : List UInt8) : List Event × BodyTap :=
  match tap with
  | sse parser adapter =>
    let (events, parser) := parser.feed bytes
    (adapter.feed json (events.map fun event => .data event.data)).map id (sse parser)
  | frames decoder adapter =>
    match decoder.feed crc32 bytes with
    | (.error message, decoder) => ([.error "bad_frame" message], frames decoder adapter)
    | (.ok decoded, decoder) =>
      (adapter.feed json (decoded.map EventStream.Frame.message)).map id (frames decoder)
  | .json tap => ([], .json (tap.feed bytes))

/-- An empty chunk is not fed. -/
def feedChunk (tap : BodyTap) (bytes : List UInt8) : List Event × BodyTap :=
  if bytes.isEmpty then ([], tap) else tap.feed json crc32 bytes

/-- What a tap emits when the body ends. -/
def finish : BodyTap → List Event
  | .json tap => tap.finish json
  | _ => []

end BodyTap

/-- A response that is being read, with the ledger of the node: what reads its body, whether its session was torn
    down after a cut, and the stream of calls it makes. -/
structure Response where
  tap : Option BodyTap
  torn : Bool
  stream : Stream.State

namespace Response

open SmallGateway.Stream (CapList Disposition ReqCtx)

/-- A response whose head has arrived. -/
def start (budgets : NodeBudgets) (bound : CapList) (wasmPerEvent : Bool) (kind : ProviderKind) (plan : TapPlan) :
    Response :=
  match plan with
  | .stream => ⟨some kind.bodyTap, false, ⟨budgets, .start bound (some .stream) wasmPerEvent, .idle⟩⟩
  | .jsonTerminal =>
    ⟨some (.json (.new kind)), false, ⟨budgets, .start bound (some .jsonTerminal) wasmPerEvent, .idle⟩⟩
  | .degraded reason =>
    ⟨none, false, ⟨budgets, { ReqCtx.start bound none wasmPerEvent with
      error := some ("meter_degraded: " ++ reason) }, .idle⟩⟩
  | .notApplicable _ => ⟨none, false, ⟨budgets, .start bound none wasmPerEvent, .idle⟩⟩

/-- One step: a chunk of the body arrives, with the answer the bound modules would give to each of its events, or
    one of the steps of `Stream.Action`. -/
inductive Action where
  | chunk (bytes : List UInt8) (answer : Nat → Option String) (endOfStream : Bool)
  | charge (nowUnix : Nat)
  | finish (abort : Option Disposition)
  | settle (nowUnix : Nat)
  | other (op : NodeBudgets.Op)

variable (json : JsonText) (crc32 : List UInt8 → Nat)

/-- After a cut a chunk tears the session down, unless it is the last one. -/
def tears (response : Response) (endOfStream : Bool) : Bool := response.stream.ctx.cut && !endOfStream

/-- What a chunk reads as, and the tap after it. A chunk that tears the session down is not read. -/
def read (response : Response) (bytes : List UInt8) (endOfStream : Bool) : List Event × Option BodyTap :=
  if response.tears endOfStream then ([], response.tap)
  else
    match response.tap with
    | none => ([], none)
    | some tap => (tap.feedChunk json crc32 bytes).map id some

/-- The events of a chunk with the answers of the modules. -/
def answered (events : List Event) (answer : Nat → Option String) : List (Event × Option String) :=
  events.mapIdx fun index event => (event, answer index)

@[simp] theorem answered_events (events : List Event) (answer : Nat → Option String) :
    (answered events answer).map (·.1) = events := by
  refine List.ext_getElem (by simp [answered]) fun index _ _ => ?_
  simp [answered]

/-- The step of the stream that a step of the response is. -/
def call (response : Response) : Action → Stream.Action
  | .chunk bytes answer endOfStream =>
    .chunk (answered (response.read json crc32 bytes endOfStream).1 answer) endOfStream
  | .charge nowUnix => .charge nowUnix
  | .finish abort => .finish ((response.tap.map (BodyTap.finish json)).getD []) abort
  | .settle nowUnix => .settle nowUnix
  | .other op => .other op

/-- The tap after a step. -/
def tapAfter (response : Response) : Action → Option BodyTap
  | .chunk bytes _ endOfStream => (response.read json crc32 bytes endOfStream).2
  | _ => response.tap

/-- The session is torn down after a step. -/
def tornAfter (response : Response) : Action → Bool
  | .chunk _ _ endOfStream => response.tears endOfStream
  | _ => response.torn

def Action.isChunk : Action → Bool
  | .chunk _ _ _ => true
  | _ => false

/-- One step. No chunk follows the one that tears the session down. -/
def step (response : Response) (action : Action) : Option Response :=
  if response.torn && action.isChunk then none
  else
    (Stream.step response.stream (response.call json crc32 action)).map fun stream =>
      ⟨response.tapAfter json crc32 action, response.tornAfter action, stream⟩

/-- The steps of the stream that a run of the response amounts to. -/
def calls (response : Response) (actions : List Action) : List Stream.Action :=
  Runs.trace (step json crc32) (fun response action _ => response.call json crc32 action) response actions

theorem step_eq_some {json : JsonText} {crc32 : List UInt8 → Nat} {response next : Response} {action : Action} :
    step json crc32 response action = some next ↔
      (response.torn && action.isChunk) = false ∧
        Stream.step response.stream (response.call json crc32 action) = some next.stream ∧
          next.tap = response.tapAfter json crc32 action ∧ next.torn = response.tornAfter action := by
  unfold step
  by_cases torn : (response.torn && action.isChunk) = true
  · simp [torn]
  · rw [if_neg torn, Option.map_eq_some_iff]
    constructor
    · rintro ⟨stream, stepped, rfl⟩
      exact ⟨by simpa using torn, stepped, rfl, rfl⟩
    · rintro ⟨-, stepped, tap, tornAfter⟩
      refine ⟨next.stream, stepped, ?_⟩
      rw [← tap, ← tornAfter]

/-- A run over bytes is a run over events. -/
theorem calls_exec {json : JsonText} {crc32 : List UInt8 → Nat} {response after : Response}
    {actions : List Action} (executed : Runs.exec (step json crc32) response actions = some after) :
    Runs.exec Stream.step response.stream (response.calls json crc32 actions) = some after.stream :=
  Runs.exec_project (fun _ _ _ stepped => (step_eq_some.mp stepped).2.1) executed

/-! ### A body under the terminal-parse tap -/

section

variable {json : JsonText} {crc32 : List UInt8 → Nat} {response : Response}

/-- The terminal-parse tap reads the body. -/
private def HoldsDocument (response : Response) : Prop := ∃ tap, response.tap = some (.json tap)

/-- Nothing of a body under the terminal-parse tap is read before its end. -/
private theorem HoldsDocument.read (held : HoldsDocument response) (json : JsonText) (crc32 : List UInt8 → Nat)
    (bytes : List UInt8) (endOfStream : Bool) :
    (response.read json crc32 bytes endOfStream).1 = [] ∧
      ∃ next, (response.read json crc32 bytes endOfStream).2 = some (.json next) := by
  obtain ⟨tap, held⟩ := held
  unfold Response.read BodyTap.feedChunk
  by_cases tears : response.tears endOfStream = true
  · rw [if_pos tears]
    exact ⟨rfl, tap, held⟩
  · rw [if_neg tears, held]
    by_cases empty : bytes.isEmpty = true
    · simp [empty]
    · simp [empty, BodyTap.feed]

private theorem holdsDocument_step : Runs.Preserves (step json crc32) HoldsDocument := by
  intro response action next held made
  obtain ⟨-, -, after, -⟩ := step_eq_some.mp made
  cases action with
  | chunk bytes answer endOfStream =>
    obtain ⟨-, tap, reading⟩ := held.read json crc32 bytes endOfStream
    exact ⟨tap, after.trans reading⟩
  | _ => exact held.imp fun tap reading => after.trans reading

theorem document_holds {budgets : NodeBudgets} {bound : CapList} {wasmPerEvent : Bool} {kind : ProviderKind}
    {actions : List Action} :
    ∀ call ∈ (start budgets bound wasmPerEvent kind .jsonTerminal).calls json crc32 actions,
      Stream.HoldsBody call := by
  refine Runs.trace_forall holdsDocument_step (fun response action next held _ => ?_) ⟨_, rfl⟩
  cases action with
  | chunk bytes answer endOfStream =>
    obtain ⟨none, -⟩ := held.read json crc32 bytes endOfStream
    simp [call, Stream.HoldsBody, none, answered]
  | _ => trivial

end

/-- A team with a cap, the only spender of some responses. -/
def teamOnly : CapList where
  caps := [(⟨"team", "ml"⟩, ⟨100, none, 4 / 5⟩)]
  distinct := by simp

/-- A new node that has admitted a request for it. -/
def teamAdmitted : NodeBudgets := (Stream.admitCaps (.new "n1") teamOnly.caps 0).2

end Response

end SmallGateway
