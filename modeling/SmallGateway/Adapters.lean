import SmallGateway.Lib.Json
import SmallGateway.Metering

/-!
The provider adapters (`gateway-core/src/adapters/`), from the framed messages of each dialect to canonical
events: the data text of one server-sent event for OpenAI, Anthropic and Vertex, one decoded event-stream
frame for Bedrock. The JSON library is a parameter (`JsonText`).
-/

namespace SmallGateway

open Json (Value)

/-- The JSON library: parsing a text or bytes, and writing a value as a text or bytes. -/
structure JsonText where
  fromStr : String → Except String Value
  fromSlice : List UInt8 → Except String Value
  toText : Value → String
  toVec : Value → List UInt8

/-- A decoded frame: its event type, empty when the header is absent, and its payload. -/
structure Frame where
  eventType : String
  payload : List UInt8
  deriving DecidableEq

/-- The providers the gateway speaks to. -/
inductive ProviderKind where
  | openai
  | anthropic
  | bedrock
  | vertex
  deriving DecidableEq, Repr

def ProviderKind.name : ProviderKind → String
  | .openai => "openai"
  | .anthropic => "anthropic"
  | .bedrock => "bedrock"
  | .vertex => "vertex"

/-- A message of a dialect, after its framing. -/
inductive Message where
  | data (text : String)
  | frame (frame : Frame)
  deriving DecidableEq

variable (json : JsonText)

/-- A position as a 32-bit index, zero when the value is no unsigned integer. -/
def asIndex (value : Value) : Nat := (value.asU64.getD 0) % 4294967296

/-! ### OpenAI -/

structure OpenAiAdapter where
  started : Bool
  done : Bool
  stopReason : Option String

namespace OpenAiAdapter

def new : OpenAiAdapter := ⟨false, false, none⟩

def toolCallEvent (tc : Value) : Event :=
  .toolCallDelta (asIndex (tc.get "index")) (tc.get "id").asStr ((tc.get "function").get "name").asStr
    (((tc.get "function").get "arguments").asStr.getD "")

def choiceEvents (choice : Value) : List Event :=
  let delta := choice.get "delta"
  (match (delta.get "content").asStr with
    | some text => if text.isEmpty then [] else [.contentDelta (asIndex (choice.get "index")) text]
    | none => []) ++
    (delta.get "tool_calls").asArray.map toolCallEvent

/-- The finish reason of the last choice that has one, else the one held before. -/
def finishReason (choices : List Value) (before : Option String) : Option String :=
  choices.foldl (fun held choice => (choice.get "finish_reason").asStr.or held) before

def onData (adapter : OpenAiAdapter) (data : String) : List Event × OpenAiAdapter :=
  if data = "[DONE]" then
    if adapter.done then ([], adapter)
    else ([.messageEnd adapter.stopReason], { adapter with done := true, stopReason := none })
  else
    match json.fromStr data with
    | .error message => ([.error "bad_chunk" message], adapter)
    | .ok chunk =>
      let start := if adapter.started then []
        else [.messageStart (chunk.get "id").asStr (chunk.get "model").asStr]
      let choices := (chunk.get "choices").asArray
      let usage := chunk.get "usage"
      let usageEvents := if usage.isObject then
        [.usageDelta (usage.get "prompt_tokens").asU64 (usage.get "completion_tokens").asU64] else []
      (start ++ choices.flatMap choiceEvents ++ usageEvents,
        { adapter with started := true, stopReason := finishReason choices adapter.stopReason })

end OpenAiAdapter

/-! ### Anthropic -/

structure AnthropicAdapter where
  inputTokens : Option Nat
  stopReason : Option String

namespace AnthropicAdapter

def new : AnthropicAdapter := ⟨none, none⟩

def blockStartEvents (data : Value) : List Event :=
  let index := asIndex (data.get "index")
  let block := data.get "content_block"
  match (block.get "type").asStr with
  | some "text" =>
    match (block.get "text").asStr with
    | some text => if text.isEmpty then [] else [.contentDelta index text]
    | none => []
  | some "tool_use" => [.toolCallDelta index (block.get "id").asStr (block.get "name").asStr ""]
  | _ => []

def blockDeltaEvents (data : Value) : List Event :=
  let index := asIndex (data.get "index")
  let delta := data.get "delta"
  match (delta.get "type").asStr with
  | some "text_delta" =>
    match (delta.get "text").asStr with
    | some text => [.contentDelta index text]
    | none => []
  | some "input_json_delta" =>
    [.toolCallDelta index none none ((delta.get "partial_json").asStr.getD "")]
  | _ => []

/-- One event of the dialect. A usage event opens the stream when `message_start` carries input tokens. -/
def onValue (adapter : AnthropicAdapter) (data : Value) : List Event × AnthropicAdapter :=
  match (data.get "type").asStr.getD "" with
  | "message_start" =>
    let msg := data.get "message"
    let usage := msg.get "usage"
    let inputTokens := (usage.get "input_tokens").asU64
    (.messageStart (msg.get "id").asStr (msg.get "model").asStr ::
        (if inputTokens.isSome then [.usageDelta inputTokens (usage.get "output_tokens").asU64] else []),
      { adapter with inputTokens })
  | "content_block_start" => (blockStartEvents data, adapter)
  | "content_block_delta" => (blockDeltaEvents data, adapter)
  | "message_delta" =>
    let usage := data.get "usage"
    (if usage.isObject then [.usageDelta adapter.inputTokens (usage.get "output_tokens").asU64] else [],
      { adapter with stopReason := ((data.get "delta").get "stop_reason").asStr.or adapter.stopReason })
  | "message_stop" => ([.messageEnd adapter.stopReason], { adapter with stopReason := none })
  | "error" =>
    ([.error (((data.get "error").get "type").asStr.getD "error")
        (((data.get "error").get "message").asStr.getD "")],
      adapter)
  | _ => ([], adapter)

def onData (adapter : AnthropicAdapter) (data : String) : List Event × AnthropicAdapter :=
  if data.isEmpty then ([], adapter)
  else
    match json.fromStr data with
    | .error message => ([.error "bad_chunk" message], adapter)
    | .ok value => adapter.onValue value

end AnthropicAdapter

/-! ### Bedrock -/

structure BedrockAdapter where
  started : Bool
  ended : Bool
  stopReason : Option String

namespace BedrockAdapter

def new : BedrockAdapter := ⟨false, false, none⟩

def blockDeltaEvents (payload : Value) : List Event :=
  let index := asIndex (payload.get "contentBlockIndex")
  let delta := payload.get "delta"
  (match (delta.get "text").asStr with
    | some text => [.contentDelta index text]
    | none => []) ++
  (match ((delta.get "toolUse").get "input").asStr with
    | some arguments => [.toolCallDelta index none none arguments]
    | none => []) ++
  (match ((delta.get "reasoningContent").get "text").asStr with
    | some text => [.contentDelta index text]
    | none => [])

def onPayload (adapter : BedrockAdapter) (eventType : String) (payload : Value) :
    List Event × BedrockAdapter :=
  match eventType with
  | "messageStart" =>
    if adapter.started then ([], adapter) else ([.messageStart none none], { adapter with started := true })
  | "contentBlockStart" =>
    let tool := (payload.get "start").get "toolUse"
    (if tool.isObject then
        [.toolCallDelta (asIndex (payload.get "contentBlockIndex")) (tool.get "toolUseId").asStr
          (tool.get "name").asStr ""]
      else [],
      adapter)
  | "contentBlockDelta" => (blockDeltaEvents payload, adapter)
  | "messageStop" => ([], { adapter with stopReason := (payload.get "stopReason").asStr })
  | "metadata" =>
    let usage := payload.get "usage"
    let usageEvents := if usage.isObject then
      [.usageDelta (usage.get "inputTokens").asU64 (usage.get "outputTokens").asU64] else []
    if adapter.ended then (usageEvents, adapter)
    else (usageEvents ++ [.messageEnd adapter.stopReason],
      { adapter with ended := true, stopReason := none })
  | _ => ([], adapter)

def onFrame (adapter : BedrockAdapter) (frame : Frame) : List Event × BedrockAdapter :=
  match json.fromSlice frame.payload with
  | .error message => ([.error "bad_payload" message], adapter)
  | .ok payload => adapter.onPayload frame.eventType payload

end BedrockAdapter

/-! ### Vertex -/

structure VertexAdapter where
  started : Bool
  ended : Bool

namespace VertexAdapter

def new : VertexAdapter := ⟨false, false⟩

def partEvents (index : Nat) (part : Value) : List Event :=
  (match (part.get "text").asStr with
    | some text => if text.isEmpty then [] else [.contentDelta index text]
    | none => []) ++
  (let call := part.get "functionCall"
   if call.isObject then
     [.toolCallDelta index none (call.get "name").asStr (json.toText (call.get "args"))]
   else [])

def candidateEvents (index : Nat) (candidate : Value) : List Event :=
  ((candidate.get "content").get "parts").asArray.flatMap (partEvents json index)

/-- The finish reason of the last candidate that has one. -/
def finishReason (candidates : List Value) : Option String :=
  (candidates.filterMap fun candidate => (candidate.get "finishReason").asStr).getLast?

def usageEvents (usage : Value) : List Event :=
  let candidatesTokens := (usage.get "candidatesTokenCount").asU64
  let promptTokens := (usage.get "promptTokenCount").asU64
  if candidatesTokens.isSome || promptTokens.isSome then [.usageDelta promptTokens candidatesTokens]
  else []

def onData (adapter : VertexAdapter) (data : String) : List Event × VertexAdapter :=
  match json.fromStr data with
  | .error message => ([.error "bad_chunk" message], adapter)
  | .ok chunk =>
    let start := if adapter.started then []
      else [.messageStart (chunk.get "responseId").asStr (chunk.get "modelVersion").asStr]
    let candidates := (chunk.get "candidates").asArray
    let content := (candidates.mapIdx fun index candidate =>
      candidateEvents json (index % 4294967296) candidate).flatten
    let events := start ++ content ++ usageEvents (chunk.get "usageMetadata")
    match finishReason candidates with
    | some reason =>
      if adapter.ended then (events, { adapter with started := true })
      else (events ++ [.messageEnd (some reason)], ⟨true, true⟩)
    | none => (events, { adapter with started := true })

end VertexAdapter

/-! ### Every dialect -/

/-- The adapter a route's provider kind selects. -/
inductive Adapter where
  | openai (adapter : OpenAiAdapter)
  | anthropic (adapter : AnthropicAdapter)
  | bedrock (adapter : BedrockAdapter)
  | vertex (adapter : VertexAdapter)

def ProviderKind.newAdapter : ProviderKind → Adapter
  | .openai => .openai .new
  | .anthropic => .anthropic .new
  | .bedrock => .bedrock .new
  | .vertex => .vertex .new

/-- One message; a message of another framing is never handed to an adapter. -/
def Adapter.onMessage (adapter : Adapter) (message : Message) : List Event × Adapter :=
  match adapter, message with
  | .openai adapter, .data text => (adapter.onData json text).map id .openai
  | .anthropic adapter, .data text => (adapter.onData json text).map id .anthropic
  | .vertex adapter, .data text => (adapter.onData json text).map id .vertex
  | .bedrock adapter, .frame frame => (adapter.onFrame json frame).map id .bedrock
  | adapter, _ => ([], adapter)

/-- The events of the messages that one chunk of the body completes. -/
def Adapter.feed (adapter : Adapter) (messages : List Message) : List Event × Adapter :=
  messages.foldl
    (fun (events, adapter) message =>
      let (more, adapter) := adapter.onMessage json message
      (events ++ more, adapter))
    ([], adapter)

/-- The events of each chunk of a body. -/
def Adapter.feedAll (adapter : Adapter) : List (List Message) → List (List Event)
  | [] => []
  | messages :: rest =>
    let (events, adapter) := adapter.feed json messages
    events :: adapter.feedAll rest

/-- The message is the frame in which the dialect reports its final usage. -/
def isTerminalUsage (kind : ProviderKind) (message : Message) : Bool :=
  match kind, message with
  | .openai, .data text =>
    match json.fromStr text with
    | .ok chunk => (chunk.get "usage").isObject
    | .error _ => false
  | .anthropic, .data text =>
    match json.fromStr text with
    | .ok data => (data.get "type").asStr == some "message_delta" && (data.get "usage").isObject
    | .error _ => false
  | .vertex, .data text =>
    match json.fromStr text with
    | .ok chunk =>
      (VertexAdapter.finishReason (chunk.get "candidates").asArray).isSome &&
        !(VertexAdapter.usageEvents (chunk.get "usageMetadata")).isEmpty
    | .error _ => false
  | .bedrock, .frame frame =>
    match json.fromSlice frame.payload with
    | .ok payload => frame.eventType == "metadata" && (payload.get "usage").isObject
    | .error _ => false
  | _, _ => false

end SmallGateway
