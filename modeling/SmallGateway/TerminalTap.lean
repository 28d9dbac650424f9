import SmallGateway.ChunkInvariance
import SmallGateway.UpstreamHeaders

/-!
The whole life of the terminal-parse tap (`gateway-core/src/adapters/json_body.rs`). Nothing comes out of it while the body
is fed, it never holds more than its bound, and what its end yields depends on the bytes of the body alone: one error, or one
message with at most one count. The error of a body past the bound comes for every such body, and for a body within the bound
only where its own error envelope says the same (`json_tap_terminal`).
-/

namespace SmallGateway

open Json (Value)

/-! ### What is held -/

namespace JsonBodyTap

/-- What a tap holds of the bytes that it has been fed. -/
def held (kind : ProviderKind) (cap : Nat) (bytes : List UInt8) : JsonBodyTap :=
  if bytes.length ≤ cap then ⟨kind, cap, bytes, false⟩ else ⟨kind, cap, [], true⟩

variable {kind : ProviderKind} {cap : Nat}

theorem withCap_held : withCap kind cap = held kind cap [] := (if_pos (Nat.zero_le cap)).symm

/-- One chunk more: a body that has passed the bound stays past it. -/
theorem feed_held (bytes chunk : List UInt8) : (held kind cap bytes).feed chunk = held kind cap (bytes ++ chunk) := by
  unfold held
  rw [List.length_append]
  by_cases fits : bytes.length ≤ cap
  · rw [if_pos fits, feed, if_neg Bool.false_ne_true]
    by_cases more : bytes.length + chunk.length ≤ cap
    · rw [if_neg (Nat.not_lt.mpr more), if_pos more]
    · rw [if_pos (Nat.not_le.mp more), if_neg more]
  · have past : ¬ bytes.length + chunk.length ≤ cap := fun within => fits (by omega)
    rw [if_neg fits, if_neg past, feed, if_pos rfl]

theorem held_bounded (kind : ProviderKind) (cap : Nat) (bytes : List UInt8) : (held kind cap bytes).buf.length ≤ cap := by
  unfold held
  split
  case isTrue fits => exact fits
  case isFalse => exact Nat.zero_le cap

end JsonBodyTap

/-- All chunks: nothing comes out, and the tap holds what it would of the bytes at once. -/
theorem BodyTap.feedAll_json (json : JsonText) (crc32 : List UInt8 → Nat) (kind : ProviderKind) (cap : Nat)
    (bytes : List UInt8) (chunks : List (List UInt8)) :
    (BodyTap.json (.held kind cap bytes)).feedAll json crc32 chunks =
      ([], .json (.held kind cap (bytes ++ chunks.flatten))) := by
  induction chunks generalizing bytes with
  | nil => rw [List.flatten_nil, List.append_nil, feedAll]
  | cons chunk rest ih =>
    have fed : (BodyTap.json (.held kind cap bytes)).feed json crc32 chunk =
        ([], .json (.held kind cap (bytes ++ chunk))) := by
      rw [feed, JsonBodyTap.feed_held]
    rw [feedAll_cons, fed, ih, List.flatten_cons, List.append_assoc]
    rfl

/-! ### What the end yields -/

namespace JsonBodyTap

/-- The error of a body past the bound. -/
def overflowError (cap : Nat) : Event :=
  .error "json_body_overflow" ("response body exceeded the " ++ toString cap ++
    "-byte terminal-parse bound; no authoritative usage was read")

/-- The error that the error envelope of a document carries. -/
def envelopeError (body : Value) : Event :=
  let err := body.get "error"
  .error (((err.get "type").asStr.or (err.get "code").asStr).getD "error") ((err.get "message").asStr.getD "")

/-- One error, or a message with at most one count. -/
def OneMessage (events : List Event) : Prop :=
  (∃ code message, events = [.error code message]) ∨
    ∃ id model usage stop, events = .messageStart id model :: (usage ++ [.messageEnd stop]) ∧
      (usage = [] ∨ ∃ input output, usage = [.usageDelta input output])

variable {json : JsonText} {kind : ProviderKind} {cap : Nat} {bytes : List UInt8}

theorem documentEvents_cases (kind : ProviderKind) (body : Value) :
    ((body.get "error").isObject = true ∧ documentEvents kind body = [envelopeError body]) ∨
      documentEvents kind body = .messageStart (body.get "id").asStr (model kind body) ::
        (usageEvents kind body ++ [.messageEnd (stopReason kind body)]) := by
  cases envelope : (body.get "error").isObject with
  | true => exact .inl ⟨rfl, by rw [documentEvents, envelope, if_pos rfl, envelopeError]⟩
  | false => exact .inr (by rw [documentEvents, envelope, if_neg Bool.false_ne_true]; rfl)

theorem usageEvents_cases (kind : ProviderKind) (body : Value) :
    usageEvents kind body = [] ∨ ∃ input output, usageEvents kind body = [.usageDelta input output] := by
  unfold usageEvents
  dsimp only
  split
  · exact .inr ⟨_, _, rfl⟩
  · exact .inl rfl

/-- What a body within the bound can come to: an error that is not the one of the bound, or its document. -/
theorem finish_within (kind : ProviderKind) (json : JsonText) (fits : bytes.length ≤ cap) :
    (∃ code message, code ≠ "json_body_overflow" ∧ (held kind cap bytes).finish json = [.error code message]) ∨
      ∃ parsed body, json.fromSlice bytes = .ok parsed ∧ document kind parsed = .ok body ∧
        (held kind cap bytes).finish json = documentEvents kind body := by
  rw [held, if_pos fits, finish, if_neg Bool.false_ne_true]
  cases read : json.fromSlice bytes with
  | error message => exact .inl ⟨_, _, by decide, rfl⟩
  | ok parsed =>
    dsimp only
    cases found : document kind parsed with
    | ok body => exact .inr ⟨parsed, body, rfl, found, rfl⟩
    | error event =>
      have shape : ∃ message, event = .error "json_body_shape" message := by
        unfold document at found
        split at found
        · split at found
          · cases found
          · exact ⟨_, (Except.error.inj found).symm⟩
        · cases found
      obtain ⟨message, rfl⟩ := shape
      exact .inl ⟨_, message, by decide, rfl⟩

theorem finish_document {parsed body : Value} (fits : bytes.length ≤ cap) (read : json.fromSlice bytes = .ok parsed)
    (found : document kind parsed = .ok body) : (held kind cap bytes).finish json = documentEvents kind body := by
  rw [held, if_pos fits, finish, if_neg Bool.false_ne_true]
  simp only [read, found]

theorem finish_past (json : JsonText) (past : cap < bytes.length) :
    (held kind cap bytes).finish json = [overflowError cap] := by
  rw [held, if_neg (Nat.not_le.mpr past), finish, if_pos rfl]
  rfl

theorem finish_oneMessage (json : JsonText) (kind : ProviderKind) (cap : Nat) (bytes : List UInt8) :
    OneMessage ((held kind cap bytes).finish json) := by
  rcases Nat.lt_or_ge cap bytes.length with past | fits
  · exact .inl ⟨_, _, finish_past json past⟩
  · rcases finish_within kind json fits with ⟨code, message, -, ended⟩ | ⟨_, body, -, -, ended⟩
    · exact .inl ⟨code, message, ended⟩
    · rcases documentEvents_cases kind body with ⟨-, events⟩ | events
      · exact .inl ⟨_, _, ended.trans events⟩
      · exact .inr ⟨_, _, _, _, ended.trans events, usageEvents_cases kind body⟩

/-- The error of a body past the bound comes from a body within it only out of its own envelope. -/
theorem finish_overflow_iff (json : JsonText) (kind : ProviderKind) (cap : Nat) (bytes : List UInt8) :
    (overflowError cap ∈ (held kind cap bytes).finish json ↔ cap < bytes.length ∨
      ∃ parsed body, json.fromSlice bytes = .ok parsed ∧ document kind parsed = .ok body ∧
        (body.get "error").isObject = true ∧ envelopeError body = overflowError cap) := by
  rcases Nat.lt_or_ge cap bytes.length with past | fits
  · rw [finish_past json past]
    exact iff_of_true (List.mem_singleton_self _) (.inl past)
  · constructor
    · intro listed
      refine .inr ?_
      rcases finish_within kind json fits with ⟨_, _, other, ended⟩ | ⟨parsed, body, read, found, ended⟩
      · rw [ended, List.mem_singleton] at listed
        exact absurd (Event.error.inj listed).1.symm other
      · rw [ended] at listed
        rcases documentEvents_cases kind body with ⟨envelope, events⟩ | events
        · rw [events, List.mem_singleton] at listed
          exact ⟨parsed, body, read, found, envelope, listed.symm⟩
        · rw [events] at listed
          rcases usageEvents_cases kind body with none | ⟨input, output, one⟩
          · simp [none, overflowError] at listed
          · simp [one, overflowError] at listed
    · rintro (past | ⟨parsed, body, read, found, envelope, same⟩)
      · exact absurd past (Nat.not_lt.mpr fits)
      · rw [finish_document fits read found]
        rcases documentEvents_cases kind body with ⟨-, events⟩ | events
        · rw [events, same]
          exact List.mem_singleton_self _
        · rw [documentEvents, envelope, if_pos rfl, ← same]
          exact List.mem_singleton_self _

end JsonBodyTap

/-! ### The life of a tap -/

open JsonBodyTap (OneMessage overflowError envelopeError document)

/-- Over every body, however it is cut: nothing comes out before the end, the bound is kept, and the end depends on the bytes
    alone and is one error or one message. -/
structure TerminalTap (json : JsonText) (crc32 : List UInt8 → Nat) (kind : ProviderKind) (cap : Nat)
    (chunks : List (List UInt8)) : Prop where
  silent : ((BodyTap.json (.withCap kind cap)).feedAll json crc32 chunks).1 = []
  bounded : ∃ tap, ((BodyTap.json (.withCap kind cap)).feedAll json crc32 chunks).2 = .json tap ∧ tap.buf.length ≤ cap
  joined : ∀ others : List (List UInt8), others.flatten = chunks.flatten →
    ((BodyTap.json (.withCap kind cap)).feedAll json crc32 others).2.finish json =
      ((BodyTap.json (.withCap kind cap)).feedAll json crc32 chunks).2.finish json
  ends : OneMessage (((BodyTap.json (.withCap kind cap)).feedAll json crc32 chunks).2.finish json)
  overflows : overflowError cap ∈ ((BodyTap.json (.withCap kind cap)).feedAll json crc32 chunks).2.finish json ↔
    cap < chunks.flatten.length ∨
      ∃ parsed body, json.fromSlice chunks.flatten = .ok parsed ∧ document kind parsed = .ok body ∧
        (body.get "error").isObject = true ∧ envelopeError body = overflowError cap

theorem json_tap_terminal (json : JsonText) (crc32 : List UInt8 → Nat) (kind : ProviderKind) (cap : Nat)
    (chunks : List (List UInt8)) : TerminalTap json crc32 kind cap chunks := by
  have fed (chunks : List (List UInt8)) : (BodyTap.json (.withCap kind cap)).feedAll json crc32 chunks =
      ([], .json (.held kind cap chunks.flatten)) := by
    rw [JsonBodyTap.withCap_held, BodyTap.feedAll_json, List.nil_append]
  constructor
  case silent => rw [fed]
  case bounded => exact ⟨_, by rw [fed], JsonBodyTap.held_bounded kind cap _⟩
  case joined =>
    intro others same
    rw [fed, fed, same]
  case ends =>
    rw [fed]
    exact JsonBodyTap.finish_oneMessage json kind cap _
  case overflows =>
    rw [fed]
    exact JsonBodyTap.finish_overflow_iff json kind cap _

/-! ### A body that speaks of the bound -/

/-- An error envelope with the words of the tap, in less than 300 bytes. -/
def overflowBody : List UInt8 :=
  utf8 ("\x7b\"error\":\x7b\"type\":\"json_body_overflow\",\"message\":\"response body exceeded the 300-byte " ++
    "terminal-parse bound; no authoritative usage was read\"\x7d\x7d")

def overflowDocument : Value :=
  .object [("error", .object [("type", .string "json_body_overflow"), ("message", .string
    "response body exceeded the 300-byte terminal-parse bound; no authoritative usage was read")])]

/-- A JSON reader that knows this body. -/
def overflowTexts : JsonText :=
  { noTexts with fromSlice := fun bytes => if bytes = overflowBody then .ok overflowDocument else .error "expected value" }

/-- A short body can end in the very error of the bound. -/
theorem short_body_says_overflow :
    ¬ ∀ (json : JsonText) (crc32 : List UInt8 → Nat) (kind : ProviderKind) (cap : Nat) (chunks : List (List UInt8)),
      overflowError cap ∈ ((BodyTap.json (.withCap kind cap)).feedAll json crc32 chunks).2.finish json ↔
        cap < chunks.flatten.length := by
  intro claimed
  have read : overflowTexts.fromSlice overflowBody = .ok overflowDocument := by simp [overflowTexts]
  have named : envelopeError overflowDocument = overflowError 300 := by decide
  have ended := (JsonBodyTap.finish_overflow_iff overflowTexts .openai 300 overflowBody).mpr
    (.inr ⟨_, _, read, rfl, rfl, named⟩)
  have fed : (BodyTap.json (.withCap .openai 300)).feedAll overflowTexts (fun _ => 0) [overflowBody] =
      ([], .json (.held .openai 300 overflowBody)) := by
    rw [JsonBodyTap.withCap_held, BodyTap.feedAll_json]
    simp
  have past := (claimed overflowTexts (fun _ => 0) .openai 300 [overflowBody]).mp (fed ▸ ended)
  have short : overflowBody.length = 141 := by decide +kernel
  rw [List.flatten_singleton, short] at past
  exact absurd past (by decide)

end SmallGateway
