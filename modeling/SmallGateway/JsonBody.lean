import SmallGateway.Adapters

/-!
The terminal-parse tap of a response that is not a stream (`gateway-core/src/adapters/json_body.rs`): the body is
held up to a bound, and its end yields the events of the one message in it, or one error. A Vertex array reports the
counts that a stream of its chunks does (`array_counts_as_stream`).
-/

namespace SmallGateway

open Json (Value)

/-- The most bytes of a body that are held. -/
def jsonBodyCap : Nat := 256 * 1024 * 1024

structure JsonBodyTap where
  kind : ProviderKind
  cap : Nat
  buf : List UInt8
  overflowed : Bool

namespace JsonBodyTap

def withCap (kind : ProviderKind) (cap : Nat) : JsonBodyTap := ⟨kind, cap, [], false⟩

def new (kind : ProviderKind) : JsonBodyTap := withCap kind jsonBodyCap

/-- Takes bytes in. A body past the bound is not held any longer. -/
def feed (tap : JsonBodyTap) (bytes : List UInt8) : JsonBodyTap :=
  if tap.overflowed then tap
  else if tap.buf.length + bytes.length > tap.cap then { tap with overflowed := true, buf := [] }
  else { tap with buf := tap.buf ++ bytes }

/-- The input and the output count of a body, under the names its dialect has for them. -/
def usage (kind : ProviderKind) (body : Value) : Option Nat × Option Nat :=
  match kind with
  | .openai => (((body.get "usage").get "prompt_tokens").asU64, ((body.get "usage").get "completion_tokens").asU64)
  | .anthropic => (((body.get "usage").get "input_tokens").asU64, ((body.get "usage").get "output_tokens").asU64)
  | .bedrock => (((body.get "usage").get "inputTokens").asU64, ((body.get "usage").get "outputTokens").asU64)
  | .vertex =>
    (((body.get "usageMetadata").get "promptTokenCount").asU64,
      ((body.get "usageMetadata").get "candidatesTokenCount").asU64)

def model (kind : ProviderKind) (body : Value) : Option String :=
  let field := match kind with
    | .openai | .anthropic | .bedrock => "model"
    | .vertex => "modelVersion"
  (body.get field).asStr

def stopReason (kind : ProviderKind) (body : Value) : Option String :=
  (match kind with
    | .openai => ((body.get "choices").item 0).get "finish_reason"
    | .anthropic => body.get "stop_reason"
    | .bedrock => body.get "stopReason"
    | .vertex => ((body.get "candidates").item 0).get "finishReason").asStr

/-- The document that carries the usage: the last chunk of an array on a Vertex route, and an array is no
    document on the others. -/
def document (kind : ProviderKind) : Value → Except Event Value
  | .array chunks =>
    match kind, chunks.getLast? with
    | .vertex, some last => .ok last
    | _, _ => .error (.error "json_body_shape" ("application/json body was a top-level array on a " ++ kind.name ++
        " route; no authoritative usage could be read"))
  | body => .ok body

/-- The usage event of a body, when it has a count. -/
def usageEvents (kind : ProviderKind) (body : Value) : List Event :=
  let (input, output) := usage kind body
  if input.isSome || output.isSome then [.usageDelta input output] else []

/-- The events of a document: the error its envelope carries, or one message. -/
def documentEvents (kind : ProviderKind) (body : Value) : List Event :=
  let err := body.get "error"
  if err.isObject then
    [.error (((err.get "type").asStr.or (err.get "code").asStr).getD "error") ((err.get "message").asStr.getD "")]
  else
    [.messageStart (body.get "id").asStr (model kind body)] ++ usageEvents kind body ++
      [.messageEnd (stopReason kind body)]

def finish (json : JsonText) (tap : JsonBodyTap) : List Event :=
  if tap.overflowed then
    [.error "json_body_overflow" ("response body exceeded the " ++ toString tap.cap ++
      "-byte terminal-parse bound; no authoritative usage was read")]
  else
    match json.fromSlice tap.buf with
    | .error message => [.error "json_body_parse" ("declared application/json did not parse: " ++ message)]
    | .ok parsed =>
      match document tap.kind parsed with
      | .error event => [event]
      | .ok body => documentEvents tap.kind body

end JsonBodyTap

/-! ### A Vertex array and the stream of its chunks -/

namespace VertexAdapter

/-- The usage of a chunk is read under the names it has in a document. -/
theorem usageEvents_counts (meter : Meter) (chunk : Value) :
    ((usageEvents (chunk.get "usageMetadata")).foldl Meter.observe meter).counts =
      ((JsonBodyTap.usage .vertex chunk).1.or meter.counts.1,
        (JsonBodyTap.usage .vertex chunk).2.or meter.counts.2) := by
  simp only [usageEvents, JsonBodyTap.usage, Meter.counts]
  cases ((chunk.get "usageMetadata").get "candidatesTokenCount").asU64 <;>
    cases ((chunk.get "usageMetadata").get "promptTokenCount").asU64 <;> simp [Meter.observe]

theorem candidateEvents_uncounted (json : JsonText) (index : Nat) (candidate : Value) :
    ∀ event ∈ candidateEvents json index candidate, event.uncounted = true := by
  intro event found
  obtain ⟨part, -, found⟩ := List.mem_flatMap.mp found
  simp only [partEvents] at found
  grind [Event.uncounted]

/-- The events of a chunk, around its usage. -/
theorem onData_events {json : JsonText} (adapter : VertexAdapter) {text : String} {chunk : Value}
    (parsed : json.fromStr text = .ok chunk) :
    ∃ before after, (adapter.onData json text).1 =
        before ++ usageEvents (chunk.get "usageMetadata") ++ after ∧
      (∀ event ∈ before, event.uncounted = true) ∧ ∀ event ∈ after, event.uncounted = true := by
  have start : ∀ event ∈ (if adapter.started then []
      else [Event.messageStart (chunk.get "responseId").asStr (chunk.get "modelVersion").asStr]),
      event.uncounted = true := by
    intro event found
    split at found
    · cases found
    · obtain rfl := List.mem_singleton.mp found
      rfl
  have content : ∀ event ∈ ((chunk.get "candidates").asArray.mapIdx fun index candidate =>
      candidateEvents json (index % 4294967296) candidate).flatten, event.uncounted = true := by
    intro event found
    obtain ⟨_, listed, found⟩ := List.mem_flatten.mp found
    obtain ⟨index, _, rfl⟩ := List.mem_mapIdx.mp listed
    exact candidateEvents_uncounted json _ _ event found
  have before := List.forall_mem_append.mpr ⟨start, content⟩
  unfold onData
  rw [parsed]
  dsimp only
  split
  · split
    · exact ⟨_, [], (List.append_nil _).symm, before, by simp⟩
    · exact ⟨_, _, rfl, before, by simp [Event.uncounted]⟩
  · exact ⟨_, [], (List.append_nil _).symm, before, by simp⟩

/-- A chunk of a stream counts as the same document does. -/
theorem onData_counts {json : JsonText} (adapter : VertexAdapter) {text : String} {chunk : Value}
    (parsed : json.fromStr text = .ok chunk) (meter : Meter) :
    ((adapter.onData json text).1.foldl Meter.observe meter).counts =
      ((JsonBodyTap.usage .vertex chunk).1.or meter.counts.1,
        (JsonBodyTap.usage .vertex chunk).2.or meter.counts.2) := by
  obtain ⟨before, after, events, quiet, quietAfter⟩ := adapter.onData_events parsed
  rw [events, List.foldl_append, List.foldl_append, observe_uncounted _ quietAfter, usageEvents_counts,
    observe_uncounted _ quiet]

/-- The last chunk with both counts has the last word. -/
theorem stream_counts {json : JsonText} (adapter : Adapter) (vertex : ∃ inner, adapter = .vertex inner)
    {texts : List String} {last : String} {chunk : Value} {input output : Nat} (parsed : json.fromStr last = .ok chunk)
    (usage : JsonBodyTap.usage .vertex chunk = (some input, some output)) :
    ((adapter.feed json ((texts ++ [last]).map .data)).1.foldl Meter.observe .new).counts =
      (some input, some output) := by
  have kept : ∃ inner, (adapter.feed json (texts.map .data)).2 = .vertex inner := by
    clear parsed usage
    induction texts using List.reverseRec with
    | nil => exact vertex
    | append_singleton texts text ih =>
      obtain ⟨inner, reached⟩ := ih
      rw [List.map_append, List.map_singleton, Adapter.feed, List.foldl_append]
      change ∃ inner, (((adapter.feed json (texts.map .data)).2.onMessage json (.data text))).2 = _
      rw [reached]
      exact ⟨_, rfl⟩
  obtain ⟨inner, reached⟩ := kept
  have split : (adapter.feed json ((texts ++ [last]).map .data)).1 =
      (adapter.feed json (texts.map .data)).1 ++ (inner.onData json last).1 := by
    rw [List.map_append, List.map_singleton, Adapter.feed, List.foldl_append]
    change _ ++ ((adapter.feed json (texts.map .data)).2.onMessage json (.data last)).1 = _
    rw [reached]
    rfl
  rw [split, List.foldl_append, onData_counts inner parsed, usage]
  rfl

end VertexAdapter

namespace JsonBodyTap

/-- A document that carries no error and both counts reports them. -/
theorem document_counts {kind : ProviderKind} {body : Value} (sound : (body.get "error").isObject = false)
    {input output : Nat} (counts : usage kind body = (some input, some output)) :
    ((documentEvents kind body).foldl Meter.observe .new).counts = (some input, some output) := by
  simp [documentEvents, sound, usageEvents, counts, Meter.observe, Meter.counts]

/-- A Vertex array reports the counts of its last chunk, and so does a stream of the same chunks. -/
theorem array_counts_as_stream {json : JsonText} {tap : JsonBodyTap} (vertex : tap.kind = .vertex)
    (held : tap.overflowed = false) {chunks : List Value} {texts : List String} {last : Value} {text : String}
    (array : json.fromSlice tap.buf = .ok (.array (chunks ++ [last]))) (parsed : json.fromStr text = .ok last)
    (sound : (last.get "error").isObject = false) {input output : Nat}
    (counts : usage .vertex last = (some input, some output)) :
    ((tap.finish json).foldl Meter.observe .new).counts =
      (((ProviderKind.newAdapter .vertex).feed json ((texts ++ [text]).map .data)).1.foldl
        Meter.observe .new).counts := by
  have body : tap.finish json = documentEvents .vertex last := by
    simp [finish, held, array, document, vertex]
  rw [body, document_counts sound counts]
  exact (VertexAdapter.stream_counts (ProviderKind.newAdapter .vertex) ⟨.new, rfl⟩ parsed counts).symm

end JsonBodyTap

end SmallGateway
