import SmallGateway.ChunkInvariance
import SmallGateway.Lib.History

/-!
The ordering contract of the canonical events (`gateway-core/src/event.rs`): one start before everything that is said,
one end, and nothing but errors after it. The adapters emit what a message reads as in this order, and three of the
four remember that they emitted the start and the end; whether a message may speak when it arrives none of them
checks. So the contract holds exactly on the streams whose messages are in order (`events_ordered_iff`).
-/

namespace SmallGateway

open Json (Value)
open History (Justified Follows justified_append justified_concat justified_nil follows_append follows_cons follows_nil)

namespace Event

def isStart : Event → Bool
  | messageStart _ _ => true
  | _ => false

def isEnd : Event → Bool
  | messageEnd _ => true
  | _ => false

/-- Content, a tool call or usage. -/
def isBody : Event → Bool
  | contentDelta _ _ => true
  | toolCallDelta _ _ _ _ => true
  | usageDelta _ _ => true
  | _ => false

/-- The contract for one event after those before it. -/
def InPlace (before : List Event) : Event → Prop
  | messageStart _ _ => before.any isStart = false ∧ before.any isEnd = false
  | messageEnd _ => before.any isEnd = false
  | error _ _ => True
  | _ => before.any isStart = true ∧ before.any isEnd = false

/-- The contract for a stream. -/
def Ordered (events : List Event) : Prop := Justified InPlace events

/-- One event of a kind where it is present, else none. -/
def Single (kind : Event → Bool) (present : Bool) (events : List Event) : Prop :=
  if present then ∃ event, events = [event] ∧ kind event = true else events = []

/-- An event that is emitted once. -/
theorem single_unless (kind : Event → Bool) (event : Event) (same : kind event = true) (emitted : Bool) :
    Single kind (!emitted) (if emitted then [] else [event]) := by
  cases emitted with
  | true => rfl
  | false => exact ⟨event, rfl, same⟩

/-- Events between a start and an end: no start and no end, and some body or none. -/
structure Said (speaks : Bool) (events : List Event) : Prop where
  apart : ∀ event ∈ events, event.isStart = false ∧ event.isEnd = false
  bodies : events.any isBody = speaks

/-- A start, then what is said, then an end, each where it is present. -/
def Shaped (starts speaks ends : Bool) (events : List Event) : Prop :=
  ∃ opening said closing, events = opening ++ said ++ closing ∧ Single isStart starts opening ∧ Said speaks said ∧
    Single isEnd ends closing

variable {before : List Event} {starts speaks ends : Bool}

theorem any_single {kind : Event → Bool} {events : List Event} (single : Single kind starts events) :
    events.any kind = starts := by
  cases starts with
  | false =>
    obtain rfl : events = [] := single
    rfl
  | true =>
    obtain ⟨event, rfl, same⟩ : ∃ event, events = [event] ∧ kind event = true := single
    simpa using same

/-- An event of one kind is none of another. -/
theorem any_single_other {kind other : Event → Bool} {events : List Event} (single : Single kind starts events)
    (apart : ∀ event, kind event = true → other event = false) : events.any other = false := by
  cases starts with
  | false =>
    obtain rfl : events = [] := single
    rfl
  | true =>
    obtain ⟨event, rfl, same⟩ : ∃ event, events = [event] ∧ kind event = true := single
    simpa using apart event same

theorem follows_start {opening : List Event} (single : Single isStart starts opening) :
    Follows InPlace before opening ↔ (starts = true → before.any isStart = false ∧ before.any isEnd = false) := by
  cases starts with
  | false =>
    obtain rfl : opening = [] := single
    simp
  | true =>
    obtain ⟨event, rfl, start⟩ : ∃ event, opening = [event] ∧ isStart event = true := single
    rw [follows_cons]
    cases event <;> simp_all [isStart, InPlace]

theorem follows_end {closing : List Event} (single : Single isEnd ends closing) :
    Follows InPlace before closing ↔ (ends = true → before.any isEnd = false) := by
  cases ends with
  | false =>
    obtain rfl : closing = [] := single
    simp
  | true =>
    obtain ⟨event, rfl, ended⟩ : ∃ event, closing = [event] ∧ isEnd event = true := single
    rw [follows_cons]
    cases event <;> simp_all [isEnd, InPlace]

/-- What is no start and no end is in place where content may stand, or is an error. -/
theorem inPlace_of_apart {event : Event} (apart : event.isStart = false ∧ event.isEnd = false) :
    InPlace before event ↔ (event.isBody = true → before.any isStart = true ∧ before.any isEnd = false) := by
  cases event with
  | messageStart => simp [isStart] at apart
  | messageEnd => simp [isEnd] at apart
  | error => simp [InPlace, isBody]
  | contentDelta => simp [InPlace, isBody]
  | toolCallDelta => simp [InPlace, isBody]
  | usageDelta => simp [InPlace, isBody]

theorem follows_said {said : List Event} (between : Said speaks said) :
    Follows InPlace before said ↔ (speaks = true → before.any isStart = true ∧ before.any isEnd = false) := by
  obtain ⟨apart, rfl⟩ := between
  induction said generalizing before with
  | nil => simp
  | cons event rest ih =>
    have here := apart event List.mem_cons_self
    have start : (before ++ [event]).any isStart = before.any isStart := by simp [here.1]
    have ended : (before ++ [event]).any isEnd = before.any isEnd := by simp [here.2]
    rw [follows_cons, ih fun other inside => apart other (List.mem_cons_of_mem _ inside), inPlace_of_apart here, start,
      ended, List.any_cons, Bool.or_eq_true, or_imp]

namespace Said

variable {events : List Event}

theorem nil : Said false [] := ⟨by simp, rfl⟩

theorem failure (code message : String) : Said false [.error code message] :=
  ⟨by simp [isStart, isEnd], rfl⟩

theorem single {event : Event} (body : event.isBody = true) : Said true [event] := by
  refine ⟨fun other inside => ?_, by simp [body]⟩
  obtain rfl := List.mem_singleton.mp inside
  cases other <;> simp_all [isBody, isStart, isEnd]

theorem append {more : Bool} {others : List Event} (first : Said speaks events) (second : Said more others) :
    Said (speaks || more) (events ++ others) := by
  refine ⟨fun event inside => ?_, by rw [List.any_append, first.bodies, second.bodies]⟩
  rcases List.mem_append.mp inside with here | there
  · exact first.apart event here
  · exact second.apart event there

theorem flatMap {α : Type*} {items : List α} {speaks : α → Bool} {emit : α → List Event}
    (each : ∀ item, Said (speaks item) (emit item)) : Said (items.any speaks) (items.flatMap emit) := by
  induction items with
  | nil => exact nil
  | cons item rest ih => exact (each item).append ih

theorem mapIdx {α : Type*} {items : List α} {speaks : α → Bool} {emit : Nat → α → List Event}
    (each : ∀ index item, Said (speaks item) (emit index item)) :
    Said (items.any speaks) (items.mapIdx emit).flatten := by
  induction items generalizing emit with
  | nil => exact nil
  | cons item rest ih =>
    rw [List.mapIdx_cons]
    exact (each 0 item).append (ih fun index => each (index + 1))

/-- One event for each item. -/
theorem map {α : Type*} {items : List α} {emit : α → Event} (body : ∀ item, (emit item).isBody = true) :
    Said (!items.isEmpty) (items.map emit) := by
  have each : Said (items.any fun _ => true) (items.flatMap fun item => [emit item]) :=
    flatMap fun item => single (body item)
  rw [← List.map_eq_flatMap] at each
  cases items <;> simpa using each

/-- An event that is emitted under a condition. -/
theorem guarded (condition : Bool) (event : Event) (body : event.isBody = true) :
    Said condition (if condition then [event] else []) := by
  cases condition with
  | true => exact single body
  | false => exact nil

/-- An event for a text that may be absent. -/
theorem optional (emit : String → Event) (body : ∀ text, (emit text).isBody = true) (found : Option String) :
    Said found.isSome (match found with
      | some text => [emit text]
      | none => []) := by
  cases found with
  | none => exact nil
  | some text => exact single (body text)

end Said

namespace Shaped

variable {events : List Event}

theorem any_isStart (shaped : Shaped starts speaks ends events) : events.any isStart = starts := by
  obtain ⟨opening, said, closing, rfl, opens, between, closes⟩ := shaped
  have none : said.any isStart = false := by simpa using fun event inside => (between.apart event inside).1
  have other : closing.any isStart = false :=
    any_single_other closes fun event => by cases event <;> simp [isEnd, isStart]
  simp only [List.any_append, any_single opens, none, other, Bool.or_false]

theorem any_isEnd (shaped : Shaped starts speaks ends events) : events.any isEnd = ends := by
  obtain ⟨opening, said, closing, rfl, opens, between, closes⟩ := shaped
  have none : said.any isEnd = false := by simpa using fun event inside => (between.apart event inside).2
  have other : opening.any isEnd = false := any_single_other opens fun event => by cases event <;> simp [isEnd, isStart]
  simp only [List.any_append, any_single closes, none, other, Bool.false_or]

/-- What the contract asks of the events of one message. -/
theorem follows_iff (shaped : Shaped starts speaks ends events) :
    Follows InPlace before events ↔
      (starts = true → before.any isStart = false ∧ before.any isEnd = false) ∧
        (speaks = true → (before.any isStart || starts) = true ∧ before.any isEnd = false) ∧
          (ends = true → before.any isEnd = false) := by
  obtain ⟨opening, said, closing, rfl, opens, between, closes⟩ := shaped
  have noEnd : opening.any isEnd = false := any_single_other opens fun event => by cases event <;> simp [isEnd, isStart]
  have noneSaid : said.any isEnd = false := by simpa using fun event inside => (between.apart event inside).2
  rw [follows_append, follows_append, follows_start opens, follows_said between, follows_end closes]
  simp only [List.any_append, any_single opens, noEnd, noneSaid, Bool.or_false, and_assoc]

end Shaped

end Event

/-! ### What a message of each dialect reads as -/

/-- Whether a message opens the stream, brings content, tool calls or usage, and closes the stream. -/
structure Reading where
  opens : Bool
  speaks : Bool
  closes : Bool

def Reading.silent : Reading := ⟨false, false, false⟩

/-- A text that is there and not empty. -/
def isText (value : Value) : Bool := value.asStr.any fun text => !text.isEmpty

theorem said_text (value : Value) (index : Nat) :
    Event.Said (isText value) (match value.asStr with
      | some text => if text.isEmpty then [] else [.contentDelta index text]
      | none => []) := by
  unfold isText
  cases value.asStr with
  | none => exact .nil
  | some text =>
    by_cases empty : text.isEmpty = true
    · simpa [empty] using Event.Said.nil
    · simpa [empty] using Event.Said.single rfl

/-- A message that only says something. -/
theorem Event.Said.shaped {speaks : Bool} {events : List Event} (between : Event.Said speaks events) :
    Event.Shaped false speaks false events := ⟨[], events, [], by simp, rfl, between, rfl⟩

variable {json : JsonText}

namespace OpenAiAdapter

def choiceSpeaks (choice : Value) : Bool :=
  let delta := choice.get "delta"
  isText (delta.get "content") || !(delta.get "tool_calls").asArray.isEmpty

variable (json) in
/-- The chunks of the dialect open the stream, and its sentinel closes it. -/
def reading (data : String) : Reading :=
  if data = "[DONE]" then ⟨false, false, true⟩
  else
    match json.fromStr data with
    | .error _ => .silent
    | .ok chunk => ⟨true, (chunk.get "choices").asArray.any choiceSpeaks || (chunk.get "usage").isObject, false⟩

theorem choiceEvents_said (choice : Value) : Event.Said (choiceSpeaks choice) (choiceEvents choice) :=
  (said_text _ _).append (.map fun _ => rfl)

theorem onData_shaped (adapter : OpenAiAdapter) (data : String) :
    Event.Shaped ((reading json data).opens && !adapter.started) (reading json data).speaks
      ((reading json data).closes && !adapter.done) (adapter.onData json data).1 := by
  unfold onData reading
  by_cases sentinel : data = "[DONE]"
  · simp only [sentinel, if_true, Bool.false_and, Bool.true_and]
    cases adapter.done with
    | true => exact Event.Said.nil.shaped
    | false => exact ⟨[], [], _, rfl, rfl, .nil, _, rfl, rfl⟩
  · simp only [sentinel, if_false]
    cases json.fromStr data with
    | error message => exact (Event.Said.failure _ _).shaped
    | ok chunk =>
      have between : Event.Said _ ((chunk.get "choices").asArray.flatMap choiceEvents ++ _) :=
        (Event.Said.flatMap choiceEvents_said).append (.guarded (chunk.get "usage").isObject (.usageDelta
          ((chunk.get "usage").get "prompt_tokens").asU64 ((chunk.get "usage").get "completion_tokens").asU64) rfl)
      have opening := Event.single_unless Event.isStart
        (.messageStart (chunk.get "id").asStr (chunk.get "model").asStr) rfl adapter.started
      refine ⟨_, _, [], ?_, opening, between, rfl⟩
      simp only [List.append_assoc, List.append_nil]

theorem onData_flags (adapter : OpenAiAdapter) (data : String) :
    (adapter.onData json data).2.started = (adapter.started || (reading json data).opens) ∧
      (adapter.onData json data).2.done = (adapter.done || (reading json data).closes) := by
  unfold onData reading
  by_cases sentinel : data = "[DONE]"
  · cases done : adapter.done <;> simp [sentinel, done]
  · cases json.fromStr data <;> simp [sentinel, Reading.silent]

end OpenAiAdapter

namespace AnthropicAdapter

def blockStartSpeaks (data : Value) : Bool :=
  let block := data.get "content_block"
  match (block.get "type").asStr with
  | some "text" => isText (block.get "text")
  | some "tool_use" => true
  | _ => false

def blockDeltaSpeaks (data : Value) : Bool :=
  let delta := data.get "delta"
  match (delta.get "type").asStr with
  | some "text_delta" => (delta.get "text").asStr.isSome
  | some "input_json_delta" => true
  | _ => false

variable (json) in
/-- The dialect says what opens and closes the stream. The opening event may bring usage. -/
def reading (data : String) : Reading :=
  if data.isEmpty then .silent
  else
    match json.fromStr data with
    | .error _ => .silent
    | .ok data =>
      match (data.get "type").asStr.getD "" with
      | "message_start" => ⟨true, (((data.get "message").get "usage").get "input_tokens").asU64.isSome, false⟩
      | "content_block_start" => ⟨false, blockStartSpeaks data, false⟩
      | "content_block_delta" => ⟨false, blockDeltaSpeaks data, false⟩
      | "message_delta" => ⟨false, (data.get "usage").isObject, false⟩
      | "message_stop" => ⟨false, false, true⟩
      | _ => .silent

theorem blockStartEvents_said (data : Value) : Event.Said (blockStartSpeaks data) (blockStartEvents data) := by
  simp only [blockStartEvents]
  split
  next typed =>
    simp only [blockStartSpeaks, typed]
    exact said_text _ _
  next typed =>
    simp only [blockStartSpeaks, typed]
    exact .single rfl
  next noText noTool =>
    have silent : blockStartSpeaks data = false := by simp only [blockStartSpeaks]
    rw [silent]
    exact .nil

theorem blockDeltaEvents_said (data : Value) : Event.Said (blockDeltaSpeaks data) (blockDeltaEvents data) := by
  simp only [blockDeltaEvents]
  split
  next typed =>
    simp only [blockDeltaSpeaks, typed]
    exact .optional (Event.contentDelta _) (fun _ => rfl) _
  next typed =>
    simp only [blockDeltaSpeaks, typed]
    exact .single rfl
  next noText noJson =>
    have silent : blockDeltaSpeaks data = false := by simp only [blockDeltaSpeaks]
    rw [silent]
    exact .nil

theorem onData_shaped (json : JsonText) (adapter : AnthropicAdapter) (data : String) :
    Event.Shaped (reading json data).opens (reading json data).speaks (reading json data).closes
      (adapter.onData json data).1 := by
  unfold onData reading
  by_cases empty : data.isEmpty = true
  · rw [if_pos empty, if_pos empty]
    exact Event.Said.nil.shaped
  · simp only [empty, Bool.false_eq_true, if_false]
    cases json.fromStr data with
    | error message => exact (Event.Said.failure _ _).shaped
    | ok data =>
      simp only [onValue]
      generalize (data.get "type").asStr.getD "" = eventType
      split
      · exact ⟨[_], _, [], (List.append_nil _).symm, ⟨_, rfl, rfl⟩, .guarded _ (Event.usageDelta _ _) rfl, rfl⟩
      · exact (blockStartEvents_said data).shaped
      · exact (blockDeltaEvents_said data).shaped
      · exact (Event.Said.guarded _ (Event.usageDelta _ _) rfl).shaped
      · exact ⟨[], [], _, rfl, rfl, .nil, _, rfl, rfl⟩
      · split <;> first | contradiction | skip
        · exact (Event.Said.failure _ _).shaped
        · exact Event.Said.nil.shaped

end AnthropicAdapter

namespace BedrockAdapter

def blockDeltaSpeaks (payload : Value) : Bool :=
  let delta := payload.get "delta"
  (delta.get "text").asStr.isSome || ((delta.get "toolUse").get "input").asStr.isSome ||
    ((delta.get "reasoningContent").get "text").asStr.isSome

variable (json) in
/-- The event that reports the usage closes the stream. -/
def reading (frame : Frame) : Reading :=
  match json.fromSlice frame.payload with
  | .error _ => .silent
  | .ok payload =>
    match frame.eventType with
    | "messageStart" => ⟨true, false, false⟩
    | "contentBlockStart" => ⟨false, ((payload.get "start").get "toolUse").isObject, false⟩
    | "contentBlockDelta" => ⟨false, blockDeltaSpeaks payload, false⟩
    | "metadata" => ⟨false, (payload.get "usage").isObject, true⟩
    | _ => .silent

theorem blockDeltaEvents_said (payload : Value) : Event.Said (blockDeltaSpeaks payload) (blockDeltaEvents payload) :=
  ((Event.Said.optional (Event.contentDelta _) (fun _ => rfl) _).append
    (.optional (Event.toolCallDelta _ none none) (fun _ => rfl) _)).append
      (.optional (Event.contentDelta _) (fun _ => rfl) _)

theorem onFrame_shaped (adapter : BedrockAdapter) (frame : Frame) :
    Event.Shaped ((reading json frame).opens && !adapter.started) (reading json frame).speaks
      ((reading json frame).closes && !adapter.ended) (adapter.onFrame json frame).1 := by
  unfold onFrame reading
  cases json.fromSlice frame.payload with
  | error message => exact (Event.Said.failure _ _).shaped
  | ok payload =>
    simp only [onPayload]
    generalize frame.eventType = eventType
    split
    · cases adapter.started with
      | true => exact Event.Said.nil.shaped
      | false => exact ⟨[_], [], [], rfl, ⟨_, rfl, rfl⟩, .nil, rfl⟩
    · exact (Event.Said.guarded _ (Event.toolCallDelta _ _ _ _) rfl).shaped
    · exact (blockDeltaEvents_said payload).shaped
    · cases adapter.ended with
      | true => exact (Event.Said.guarded _ (Event.usageDelta _ _) rfl).shaped
      | false => exact ⟨[], _, [_], rfl, rfl, .guarded _ (Event.usageDelta _ _) rfl, _, rfl, rfl⟩
    · split <;> first | contradiction | skip
      · exact Event.Said.nil.shaped
      · exact Event.Said.nil.shaped

theorem onFrame_flags (adapter : BedrockAdapter) (frame : Frame) :
    (adapter.onFrame json frame).2.started = (adapter.started || (reading json frame).opens) ∧
      (adapter.onFrame json frame).2.ended = (adapter.ended || (reading json frame).closes) := by
  unfold onFrame reading
  cases json.fromSlice frame.payload with
  | error message => simp [Reading.silent]
  | ok payload =>
    simp only [onPayload]
    generalize frame.eventType = eventType
    split
    · cases started : adapter.started <;> simp [started]
    · simp
    · simp
    · simp [Reading.silent]
    · cases ended : adapter.ended <;> simp [ended]
    · split <;> first | contradiction | simp [Reading.silent]

end BedrockAdapter

namespace VertexAdapter

def partSpeaks (part : Value) : Bool := isText (part.get "text") || (part.get "functionCall").isObject

def candidateSpeaks (candidate : Value) : Bool :=
  ((candidate.get "content").get "parts").asArray.any partSpeaks

/-- A frame with a token count reports usage. -/
def usageSpeaks (usage : Value) : Bool :=
  (usage.get "candidatesTokenCount").asU64.isSome || (usage.get "promptTokenCount").asU64.isSome

variable (json) in
/-- The frames of the dialect open the stream, and one with a finish reason closes it. -/
def reading (data : String) : Reading :=
  match json.fromStr data with
  | .error _ => .silent
  | .ok chunk =>
    let candidates := (chunk.get "candidates").asArray
    ⟨true, candidates.any candidateSpeaks || usageSpeaks (chunk.get "usageMetadata"),
      candidates.any fun candidate => (candidate.get "finishReason").asStr.isSome⟩

theorem partEvents_said (index : Nat) (part : Value) : Event.Said (partSpeaks part) (partEvents json index part) :=
  (said_text _ _).append (.guarded _ (Event.toolCallDelta _ _ _ _) rfl)

theorem candidateEvents_said (index : Nat) (candidate : Value) :
    Event.Said (candidateSpeaks candidate) (candidateEvents json index candidate) :=
  .flatMap (partEvents_said index)

theorem usageEvents_said (usage : Value) : Event.Said (usageSpeaks usage) (usageEvents usage) :=
  .guarded _ (Event.usageDelta _ _) rfl

theorem finishReason_isSome (candidates : List Value) :
    (finishReason candidates).isSome = candidates.any fun candidate => (candidate.get "finishReason").asStr.isSome := by
  unfold finishReason
  induction candidates with
  | nil => rfl
  | cons candidate rest ih =>
    cases found : (candidate.get "finishReason").asStr with
    | none => simpa [found] using ih
    | some reason => simp [found, List.getLast?_cons]

theorem onData_shaped (adapter : VertexAdapter) (data : String) :
    Event.Shaped ((reading json data).opens && !adapter.started) (reading json data).speaks
      ((reading json data).closes && !adapter.ended) (adapter.onData json data).1 := by
  unfold onData reading
  cases json.fromStr data with
  | error message => exact (Event.Said.failure _ _).shaped
  | ok chunk =>
    have opening := Event.single_unless Event.isStart
      (.messageStart (chunk.get "responseId").asStr (chunk.get "modelVersion").asStr) rfl adapter.started
    have between : Event.Said _ (((chunk.get "candidates").asArray.mapIdx fun index candidate =>
        candidateEvents json (index % 4294967296) candidate).flatten ++ usageEvents (chunk.get "usageMetadata")) :=
      (Event.Said.mapIdx fun index => candidateEvents_said (index % 4294967296)).append (usageEvents_said _)
    simp only [← finishReason_isSome, Bool.true_and]
    cases finishReason (chunk.get "candidates").asArray with
    | none => exact ⟨_, _, [], by simp only [List.append_assoc, List.append_nil], opening, between, rfl⟩
    | some reason =>
      cases adapter.ended with
      | true => exact ⟨_, _, [], by simp only [List.append_assoc, List.append_nil, if_true], opening, between, rfl⟩
      | false => exact ⟨_, _, [_], by simp only [List.append_assoc]; rfl, opening, between, _, rfl, rfl⟩

theorem onData_flags (adapter : VertexAdapter) (data : String) :
    (adapter.onData json data).2.started = (adapter.started || (reading json data).opens) ∧
      (adapter.onData json data).2.ended = (adapter.ended || (reading json data).closes) := by
  unfold onData reading
  cases json.fromStr data with
  | error message => simp [Reading.silent]
  | ok chunk =>
    simp only [← finishReason_isSome]
    cases finishReason (chunk.get "candidates").asArray with
    | none => simp
    | some reason => cases adapter.ended <;> simp

end VertexAdapter

/-! ### Every dialect -/

namespace Adapter

def kind : Adapter → ProviderKind
  | openai _ => .openai
  | anthropic _ => .anthropic
  | bedrock _ => .bedrock
  | vertex _ => .vertex

/-- The adapter remembers that it emitted the start. -/
def begun : Adapter → Bool
  | openai adapter => adapter.started
  | anthropic _ => false
  | bedrock adapter => adapter.started
  | vertex adapter => adapter.started

/-- The adapter remembers that it emitted the end. -/
def ended : Adapter → Bool
  | openai adapter => adapter.done
  | anthropic _ => false
  | bedrock adapter => adapter.ended
  | vertex adapter => adapter.ended

end Adapter

namespace ProviderKind

/-- The adapter of the dialect remembers what it emitted. -/
def remembers (kind : ProviderKind) : Bool := kind != .anthropic

variable (json) in
def reading (kind : ProviderKind) (message : Message) : Reading :=
  match kind, message with
  | .openai, .data text => OpenAiAdapter.reading json text
  | .anthropic, .data text => AnthropicAdapter.reading json text
  | .vertex, .data text => VertexAdapter.reading json text
  | .bedrock, .frame frame => BedrockAdapter.reading json frame
  | _, _ => .silent

end ProviderKind

/-- What an adapter emits for a message, and what it remembers then. -/
theorem Adapter.onMessage_spec (json : JsonText) (adapter : Adapter) (message : Message) :
    let reading := adapter.kind.reading json message
    Event.Shaped (reading.opens && !adapter.begun) reading.speaks (reading.closes && !adapter.ended)
        (adapter.onMessage json message).1 ∧
      (adapter.onMessage json message).2.kind = adapter.kind ∧
        (adapter.onMessage json message).2.begun = (adapter.begun || (adapter.kind.remembers && reading.opens)) ∧
          (adapter.onMessage json message).2.ended = (adapter.ended || (adapter.kind.remembers && reading.closes)) := by
  have foreign (begun ended : Bool) : Event.Shaped (Reading.silent.opens && !begun) Reading.silent.speaks
      (Reading.silent.closes && !ended) [] := Event.Said.nil.shaped
  cases adapter with
  | openai adapter =>
    cases message with
    | data text => exact ⟨adapter.onData_shaped text, rfl, adapter.onData_flags text⟩
    | frame frame => exact ⟨foreign _ _, rfl, (Bool.or_false _).symm, (Bool.or_false _).symm⟩
  | anthropic adapter =>
    cases message with
    | data text =>
      refine ⟨?_, rfl, rfl, rfl⟩
      have shaped := AnthropicAdapter.onData_shaped json adapter text
      rwa [← Bool.and_true (AnthropicAdapter.reading json text).opens,
        ← Bool.and_true (AnthropicAdapter.reading json text).closes] at shaped
    | frame frame => exact ⟨foreign _ _, rfl, rfl, rfl⟩
  | bedrock adapter =>
    cases message with
    | data text => exact ⟨foreign _ _, rfl, (Bool.or_false _).symm, (Bool.or_false _).symm⟩
    | frame frame => exact ⟨adapter.onFrame_shaped frame, rfl, adapter.onFrame_flags frame⟩
  | vertex adapter =>
    cases message with
    | data text => exact ⟨adapter.onData_shaped text, rfl, adapter.onData_flags text⟩
    | frame frame => exact ⟨foreign _ _, rfl, (Bool.or_false _).symm, (Bool.or_false _).symm⟩

/-! ### The messages of a stream -/

section

variable (json) (kind : ProviderKind)

def opened (messages : List Message) : Bool := messages.any fun message => (kind.reading json message).opens

def closed (messages : List Message) : Bool := messages.any fun message => (kind.reading json message).closes

/-- A message arrives in order: it speaks in an open stream, and does not open one that was closed first. In the
    dialect whose adapter remembers nothing it neither opens nor closes a second time. -/
@[mk_iff]
structure Fits (before : List Message) (message : Message) : Prop where
  speaks : (kind.reading json message).speaks = true →
    (opened json kind before || (kind.reading json message).opens) = true ∧ closed json kind before = false
  opens : (kind.reading json message).opens = true →
    (opened json kind before = false → closed json kind before = false) ∧
      (kind = .anthropic → opened json kind before = false)
  closes : (kind.reading json message).closes = true → kind = .anthropic → closed json kind before = false

theorem opened_concat (messages : List Message) (message : Message) :
    opened json kind (messages ++ [message]) = (opened json kind messages || (kind.reading json message).opens) := by
  simp [opened]

theorem closed_concat (messages : List Message) (message : Message) :
    closed json kind (messages ++ [message]) = (closed json kind messages || (kind.reading json message).closes) := by
  simp [closed]

/-- Every message of the stream arrives in order. -/
def InOrder (messages : List Message) : Prop := Justified (Fits json kind) messages

/-- The events so far and the adapter agree with the messages so far. -/
structure Tracks (events : List Event) (messages : List Message) (adapter : Adapter) : Prop where
  dialect : adapter.kind = kind
  opened : events.any Event.isStart = opened json kind messages
  closed : events.any Event.isEnd = closed json kind messages
  begun : adapter.begun = (kind.remembers && SmallGateway.opened json kind messages)
  ended : adapter.ended = (kind.remembers && SmallGateway.closed json kind messages)
  ordered : Event.Ordered events ↔ InOrder json kind messages

end

namespace Tracks

variable {kind : ProviderKind} {events : List Event} {messages : List Message} {adapter : Adapter}

theorem start : Tracks json kind [] [] kind.newAdapter := by
  have both : Event.Ordered [] ↔ InOrder json kind [] := iff_of_true justified_nil justified_nil
  cases kind <;> exact ⟨rfl, rfl, rfl, rfl, rfl, both⟩

/-- An error changes nothing. -/
theorem failure (tracks : Tracks json kind events messages adapter) (code message : String) :
    Tracks json kind (events ++ [.error code message]) messages adapter where
  dialect := tracks.dialect
  opened := by simpa [Event.isStart] using tracks.opened
  closed := by simpa [Event.isEnd] using tracks.closed
  begun := tracks.begun
  ended := tracks.ended
  ordered := by
    rw [← tracks.ordered, Event.Ordered, justified_concat]
    exact and_iff_left trivial

theorem message (tracks : Tracks json kind events messages adapter) (next : Message) :
    Tracks json kind (events ++ (adapter.onMessage json next).1) (messages ++ [next])
      (adapter.onMessage json next).2 := by
  obtain ⟨shaped, dialect, begun, ended⟩ := Adapter.onMessage_spec json adapter next
  rw [tracks.dialect, tracks.begun, tracks.ended] at shaped
  rw [tracks.dialect, tracks.begun] at begun
  rw [tracks.dialect, tracks.ended] at ended
  refine ⟨dialect.trans tracks.dialect, ?_, ?_, ?_, ?_, ?_⟩
  · rw [List.any_append, shaped.any_isStart, tracks.opened, opened_concat]
    cases SmallGateway.opened json kind messages <;> simp
  · rw [List.any_append, shaped.any_isEnd, tracks.closed, closed_concat]
    cases SmallGateway.closed json kind messages <;> simp
  · rw [begun, opened_concat, Bool.and_or_distrib_left]
  · rw [ended, closed_concat, Bool.and_or_distrib_left]
  · rw [Event.Ordered, justified_append, InOrder, justified_concat]
    refine and_congr tracks.ordered ?_
    rw [shaped.follows_iff, tracks.opened, tracks.closed, fits_iff]
    generalize SmallGateway.opened json kind messages = opened
    generalize SmallGateway.closed json kind messages = closed
    generalize kind.reading json next = reading
    obtain ⟨opens, speaks, closes⟩ := reading
    by_cases forgets : kind = .anthropic
    · have nothing : kind.remembers = false := by simp [forgets, ProviderKind.remembers]
      rw [nothing]
      cases opened <;> cases closed <;> simp [forgets] <;> tauto
    · have everything : kind.remembers = true := by simpa [ProviderKind.remembers] using forgets
      rw [everything]
      cases opened <;> cases closed <;> simp [forgets, and_comm]

theorem feed (tracks : Tracks json kind events messages adapter) (more : List Message) :
    Tracks json kind (events ++ (adapter.feed json more).1) (messages ++ more) (adapter.feed json more).2 := by
  induction more using List.reverseRec with
  | nil => simpa using tracks
  | append_singleton more last ih =>
    rw [Adapter.feed_append, ← List.append_assoc, ← List.append_assoc]
    exact ih.message last

end Tracks

namespace BodyTap

variable (crc32 : List UInt8 → Nat)

def adapter? : BodyTap → Option Adapter
  | sse _ adapter => some adapter
  | frames _ adapter => some adapter
  | .json _ => none

/-- The messages that the framing reads from a chunk. -/
def messages (tap : BodyTap) (bytes : List UInt8) : List Message :=
  match tap with
  | sse parser _ => (parser.feed bytes).1.map fun event => .data event.data
  | frames decoder _ =>
    match (decoder.feed crc32 bytes).1 with
    | .error _ => []
    | .ok decoded => decoded.map EventStream.Frame.message
  | .json _ => []

variable (json) in
/-- The messages that the framing reads from the chunks of a body. -/
def messagesAll (tap : BodyTap) : List (List UInt8) → List Message
  | [] => []
  | chunk :: rest => tap.messages crc32 chunk ++ messagesAll (tap.feed json crc32 chunk).2 rest

variable {crc32} {kind : ProviderKind} {events : List Event} {before : List Message} {adapter : Adapter} {tap : BodyTap}

theorem tracks_feed (reads : tap.adapter? = some adapter) (tracks : Tracks json kind events before adapter)
    (bytes : List UInt8) :
    ∃ next, (tap.feed json crc32 bytes).2.adapter? = some next ∧
      Tracks json kind (events ++ (tap.feed json crc32 bytes).1) (before ++ tap.messages crc32 bytes) next := by
  cases tap with
  | sse parser held =>
    obtain rfl : held = adapter := Option.some.inj reads
    exact ⟨_, rfl, tracks.feed _⟩
  | frames decoder held =>
    obtain rfl : held = adapter := Option.some.inj reads
    simp only [BodyTap.feed, messages]
    rcases decoder.feed crc32 bytes with ⟨message | decoded, decoder⟩
    · exact ⟨held, rfl, by simpa using tracks.failure "bad_frame" message⟩
    · exact ⟨_, rfl, tracks.feed _⟩
  | json tap => cases reads

theorem tracks_feedAll (reads : tap.adapter? = some adapter) (tracks : Tracks json kind events before adapter)
    (chunks : List (List UInt8)) :
    ∃ next, Tracks json kind (events ++ (tap.feedAll json crc32 chunks).1)
      (before ++ tap.messagesAll json crc32 chunks) next := by
  induction chunks generalizing tap adapter events before with
  | nil => exact ⟨adapter, by simpa [feedAll, messagesAll] using tracks⟩
  | cons chunk rest ih =>
    obtain ⟨next, reads, tracks⟩ := tracks_feed reads tracks chunk
    obtain ⟨last, tracks⟩ := ih reads tracks
    rw [List.append_assoc, List.append_assoc] at tracks
    exact ⟨last, tracks⟩

end BodyTap

/-- The events of a body follow the ordering contract exactly when its messages are in order. -/
theorem events_ordered_iff (json : JsonText) (crc32 : List UInt8 → Nat) (kind : ProviderKind)
    (chunks : List (List UInt8)) :
    Event.Ordered (kind.bodyTap.feedAll json crc32 chunks).1 ↔
      InOrder json kind (kind.bodyTap.messagesAll json crc32 chunks) := by
  have reads : kind.bodyTap.adapter? = some kind.newAdapter := by cases kind <;> rfl
  obtain ⟨next, tracks⟩ : ∃ next, Tracks json kind ([] ++ (kind.bodyTap.feedAll json crc32 chunks).1)
      ([] ++ kind.bodyTap.messagesAll json crc32 chunks) next := BodyTap.tracks_feedAll reads Tracks.start chunks
  exact tracks.ordered

/-- A chunk with content after the sentinel opens the stream after its end. -/
theorem content_after_done :
    ¬ ∀ (json : JsonText) (crc32 : List UInt8 → Nat) (kind : ProviderKind) (chunks : List (List UInt8)),
      Event.Ordered (kind.bodyTap.feedAll json crc32 chunks).1 := by
  intro claimed
  have emitted : (ProviderKind.openai.bodyTap.feedAll BodyTap.naiveJson (fun _ => 0)
      [("data: [DONE]\n\ndata: " ++ BodyTap.naiveData ++ "\n\n").toUTF8.toList]).1 =
        [.messageEnd none, .messageStart none none, .contentDelta 0 "naïve"] := by decide +kernel
  have place := claimed BodyTap.naiveJson (fun _ => 0) .openai
    [("data: [DONE]\n\ndata: " ++ BodyTap.naiveData ++ "\n\n").toUTF8.toList]
  rw [emitted] at place
  have start := place [.messageEnd none] (.messageStart none none) [.contentDelta 0 "naïve"] rfl
  exact absurd start.2 (by decide)

end SmallGateway
