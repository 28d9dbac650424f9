import SmallGateway.Config
import SmallGateway.Lib.Json
import SmallGateway.Lib.Records
import SmallGateway.Lib.Runs
import SmallGateway.Lib.Sha256
import SmallGateway.Text
import SmallGateway.Utf8Bytes
import Mathlib.Data.List.Nodup
import Mathlib.Data.Set.Function
import Std.Data.String.ToNat

/-!
The export of request spans (`gatewayd/src/otel.rs`). Requests put their spans into a bounded queue, or drop and count
them where it is full, and one thread takes them out in batches, numbers them and posts each batch once. Over every
interleaving of the requests with the thread, a span that is not dropped is posted once and in order or still on its
way, and the dropped ones are counted (`spans_conserved`).
-/

namespace SmallGateway.Otel

open Config (OtlpConfig)
open Json (Value)

/-! ### Spans -/

/-- What one request tells. -/
structure SpanRecord where
  startUnixNanos : Nat
  endUnixNanos : Nat
  method : String
  path : String
  status : Option Nat
  route : Option String
  provider : Option String
  attribution : List (String × String)
  tokensEstimated : Nat
  tokensAuthoritative : Option Nat
  cut : Bool
  disposition : Option String
  configVersion : Nat
  error : Option String
  deriving DecidableEq

def strAttr (key value : String) : Value :=
  .object [("key", .string key), ("value", .object [("stringValue", .string value)])]

def intAttr (key : String) (value : Nat) : Value :=
  .object [("key", .string key), ("value", .object [("intValue", .string (Nat.repr value))])]

def boolAttr (key : String) (value : Bool) : Value :=
  .object [("key", .string key), ("value", .object [("boolValue", .bool value)])]

def SpanRecord.attributes (s : SpanRecord) : List Value :=
  [strAttr "http.request.method" s.method, strAttr "url.path" s.path, intAttr "gateway.config.version" s.configVersion,
    intAttr "gateway.tokens.estimated" s.tokensEstimated, boolAttr "gateway.stream.cut" s.cut] ++
  (s.status.map (intAttr "http.response.status_code")).toList ++ (s.route.map (strAttr "gateway.route")).toList ++
  (s.provider.map (strAttr "gateway.provider")).toList ++
  (s.tokensAuthoritative.map (intAttr "gateway.tokens.authoritative")).toList ++
  (s.disposition.map (strAttr "gateway.stream.disposition")).toList ++ (s.error.map (strAttr "gateway.error")).toList ++
  s.attribution.map fun (key, value) => strAttr ("gateway.attribution." ++ key) value

/-- A server error is an error, and all else is fine. -/
def SpanRecord.statusCode (s : SpanRecord) : Nat := if s.status.any (500 ≤ ·) then 2 else 1

section

variable (digest : List UInt8 → List UInt8) (cfg : OtlpConfig) (nodeId : String)

/-- What the ids of a span are derived from. -/
def idText (seq : Nat) (s : SpanRecord) : String :=
  nodeId ++ "|" ++ Nat.repr seq ++ "|" ++ Nat.repr s.startUnixNanos

def idDigest (seq : Nat) (s : SpanRecord) : List Char :=
  (Text.hex (digest (Text.utf8Bytes (idText nodeId seq s)))).toList

def traceId (seq : Nat) (s : SpanRecord) : String := String.ofList ((idDigest digest nodeId seq s).take 32)

def spanId (seq : Nat) (s : SpanRecord) : String := String.ofList (((idDigest digest nodeId seq s).drop 32).take 16)

def spanJson (seq : Nat) (s : SpanRecord) : Value :=
  .object [("attributes", .array s.attributes), ("endTimeUnixNano", .string (Nat.repr s.endUnixNanos)),
    ("kind", .number (.posInt 2)), ("name", .string "gateway.request"),
    ("spanId", .string (spanId digest nodeId seq s)), ("startTimeUnixNano", .string (Nat.repr s.startUnixNanos)),
    ("status", .object [("code", .number (.posInt s.statusCode))]),
    ("traceId", .string (traceId digest nodeId seq s))]

/-- The spans of a batch, numbered on from the last one before. -/
def spansJson : Nat → List SpanRecord → List Value
  | _, [] => []
  | seq, s :: batch => spanJson digest nodeId (seq + 1) s :: spansJson (seq + 1) batch

/-- The request that exports a batch, and the number of its last span. -/
def otlpTracesJson (batch : List SpanRecord) (seq : Nat) : Value × Nat :=
  (.object [("resourceSpans", .array [.object [
      ("resource", .object [("attributes", .array [strAttr "service.name" cfg.serviceName,
        strAttr "service.instance.id" nodeId])]),
      ("scopeSpans", .array [.object [("scope", .object [("name", .string "gatewayd")]),
        ("spans", .array (spansJson digest nodeId seq batch))]])]])],
    seq + batch.length)

end

/-! ### The exporter -/

def queueDepth : Nat := 4096

def batchCap : Nat := 512

/-- What the thread is at: it waits for the first span of a batch, fills the batch, posts it, or has ended. -/
inductive Stage where
  | waiting
  | filling (batch : List SpanRecord)
  | posting (batch : List SpanRecord)
  | stopped

namespace Stage

/-- The spans that the thread holds. -/
def held : Stage → List SpanRecord
  | filling batch => batch
  | posting batch => batch
  | _ => []

end Stage

/-- The queue and the thread, with what the requests have recorded, each span with whether the queue took it, and the
    requests that the thread has posted. A span that found the queue full is `failing` until it is counted. -/
structure Exporter where
  queue : List SpanRecord
  failing : Nat
  dropped : Nat
  stage : Stage
  seq : Nat
  handle : Bool
  recorded : List (SpanRecord × Bool)
  posted : List (List SpanRecord × Value)
  reported : Nat

inductive Action where
  | record (span : SpanRecord)
  | count
  | close
  | receive
  | elapse
  | flush
  | answered

namespace Exporter

variable (digest : List UInt8 → List UInt8) (cfg : OtlpConfig) (nodeId : String)

def spawn : Exporter := ⟨[], 0, 0, .waiting, 0, true, [], [], 0⟩

/-- A span is queued, or fails where the queue is full. -/
def trySend (e : Exporter) (span : SpanRecord) : Exporter :=
  if e.queue.length < queueDepth then
    { e with queue := e.queue ++ [span], recorded := e.recorded ++ [(span, true)] }
  else { e with failing := e.failing + 1, recorded := e.recorded ++ [(span, false)] }

/-- The dropped spans are reported, and the count starts anew. -/
def report (e : Exporter) : Exporter := { e with dropped := 0, reported := e.reported + e.dropped }

/-- The batch is posted. -/
def post (e : Exporter) (batch : List SpanRecord) : Exporter :=
  let (body, seq) := otlpTracesJson digest cfg nodeId batch e.seq
  { e.report with stage := .posting batch, seq := seq, posted := e.posted ++ [(batch, body)] }

/-- A step of a request or of the thread. The thread takes what is in the queue before it sees that it has waited long
    enough, or that the handle is gone. -/
def step (e : Exporter) : Action → Option Exporter
  | .record span => if e.handle then some (e.trySend span) else none
  | .count => if e.failing = 0 then none else some { e with failing := e.failing - 1, dropped := e.dropped + 1 }
  | .close => if e.failing = 0 then some { e with handle := false } else none
  | .receive =>
    match e.queue, e.stage with
    | span :: rest, .waiting => some { e with queue := rest, stage := .filling [span] }
    | span :: rest, .filling batch =>
      if batch.length < batchCap then some { e with queue := rest, stage := .filling (batch ++ [span]) } else none
    | _, _ => none
  | .elapse =>
    match e.queue, e.stage with
    | [], .waiting => some (if e.handle then e.report else { e with stage := .stopped })
    | _, _ => none
  | .flush =>
    match e.stage with
    | .filling batch => if batch.length = batchCap ∨ e.queue = [] then some (e.post digest cfg nodeId batch) else none
    | _ => none
  | .answered =>
    match e.stage with
    | .posting _ => some { e with stage := .waiting }
    | _ => none

/-- The spans that the queue took, in order. -/
def taken (e : Exporter) : List SpanRecord := (e.recorded.filter (·.2)).map (·.1)

/-- The spans that the thread has begun to post, in order. -/
def sent (e : Exporter) : List SpanRecord := e.posted.flatMap (·.1)

/-- The batch that is not yet posted. -/
def batch (e : Exporter) : List SpanRecord :=
  match e.stage with
  | .filling batch => batch
  | _ => []

/-- How many spans found the queue full. -/
def lost (e : Exporter) : Nat := e.recorded.countP fun entry => !entry.2

end Exporter

/-- The spans of a request, as a collector finds them. -/
def exportedSpans (body : Value) : List Value :=
  (((((body.get "resourceSpans").item 0).get "scopeSpans").item 0).get "spans").asArray

/-- What has been recorded is accounted for. -/
structure Exporter.Conserved (digest : List UInt8 → List UInt8) (nodeId : String) (e : Exporter) : Prop where
  taken : e.taken = e.sent ++ e.batch ++ e.queue
  lost : e.lost = e.failing + e.dropped + e.reported
  depth : e.queue.length ≤ queueDepth
  cap : e.batch.length ≤ batchCap
  posts : ∀ post ∈ e.posted, post.1 ≠ [] ∧ post.1.length ≤ batchCap
  numbered : e.posted.flatMap (fun post => exportedSpans post.2) = spansJson digest nodeId 0 e.sent
  ended : e.stage = .stopped → e.queue = [] ∧ e.handle = false

/-! ### Numbers -/

section

variable {digest : List UInt8 → List UInt8} {cfg : OtlpConfig} {nodeId : String}

theorem exportedSpans_otlpTracesJson (batch : List SpanRecord) (seq : Nat) :
    exportedSpans (otlpTracesJson digest cfg nodeId batch seq).1 = spansJson digest nodeId seq batch := rfl

theorem spansJson_append (seq : Nat) (first second : List SpanRecord) :
    spansJson digest nodeId seq (first ++ second) =
      spansJson digest nodeId seq first ++ spansJson digest nodeId (seq + first.length) second := by
  induction first generalizing seq with
  | nil => rfl
  | cons s rest ih =>
    rw [List.cons_append, spansJson, spansJson, ih, List.cons_append, List.length_cons, Nat.add_right_comm,
      Nat.add_assoc]

/-! ### A step -/

namespace Exporter

/-- What every step keeps. -/
structure Sound (digest : List UInt8 → List UInt8) (nodeId : String) (e : Exporter) : Prop
    extends e.Conserved digest nodeId where
  seq : e.seq = e.sent.length
  filled : ∀ batch, e.stage = .filling batch → batch ≠ []

theorem spawn_sound : Sound digest nodeId spawn where
  taken := rfl
  lost := rfl
  depth := Nat.zero_le _
  cap := Nat.zero_le _
  posts := by simp [spawn]
  numbered := rfl
  ended := by simp [spawn]
  seq := rfl
  filled := by simp [spawn]

theorem taken_concat (e : Exporter) (span : SpanRecord) (fits : Bool) :
    ((e.recorded ++ [(span, fits)]).filter (·.2)).map (·.1) = e.taken ++ if fits then [span] else [] := by
  cases fits <;> simp [taken]

theorem trySend_sound {e : Exporter} (sound : e.Sound digest nodeId) (opened : e.handle = true) (span : SpanRecord) :
    (e.trySend span).Sound digest nodeId := by
  have running : e.stage ≠ .stopped := by
    intro ended
    simp [(sound.ended ended).2] at opened
  unfold trySend
  split
  · rename_i room
    refine { sound with taken := ?_, lost := ?_, depth := ?_, ended := fun ended => absurd ended running }
    · show ((e.recorded ++ [(span, true)]).filter (·.2)).map (·.1) = e.sent ++ e.batch ++ (e.queue ++ [span])
      rw [taken_concat, sound.taken, if_pos rfl, List.append_assoc (e.sent ++ e.batch)]
    · show (e.recorded ++ [(span, true)]).countP (fun entry => !entry.2) = e.failing + e.dropped + e.reported
      rw [List.countP_append, ← sound.lost]
      rfl
    · rw [List.length_append, List.length_singleton]
      exact room
  · refine { sound with taken := ?_, lost := ?_, ended := fun ended => absurd ended running }
    · show ((e.recorded ++ [(span, false)]).filter (·.2)).map (·.1) = e.sent ++ e.batch ++ e.queue
      rw [taken_concat, sound.taken, if_neg Bool.false_ne_true, List.append_nil]
    · have counted := sound.lost
      show (e.recorded ++ [(span, false)]).countP (fun entry => !entry.2) = e.failing + 1 + e.dropped + e.reported
      rw [lost] at counted
      simp only [List.countP_append, counted, List.countP_singleton, Bool.not_false, if_true]
      omega

theorem report_sound {e : Exporter} (sound : e.Sound digest nodeId) : e.report.Sound digest nodeId := by
  have counted := sound.lost
  refine { sound with lost := ?_ }
  show e.lost = e.failing + 0 + (e.reported + e.dropped)
  omega

theorem receive_sound {e : Exporter} (sound : e.Sound digest nodeId) {span : SpanRecord} {rest : List SpanRecord}
    (first : e.queue = span :: rest) (room : e.batch.length < batchCap) :
    Sound digest nodeId { e with queue := rest, stage := .filling (e.batch ++ [span]) } where
  taken := by
    show e.taken = e.sent ++ (e.batch ++ [span]) ++ rest
    rw [sound.taken, first]
    simp
  lost := sound.lost
  depth := by
    have deep := sound.depth
    rw [first, List.length_cons] at deep
    exact Nat.le_of_succ_le deep
  cap := by
    show (e.batch ++ [span]).length ≤ batchCap
    rw [List.length_append, List.length_singleton]
    exact room
  posts := sound.posts
  numbered := sound.numbered
  ended := fun ended => by cases ended
  seq := sound.seq
  filled := by
    rintro _ ⟨⟩
    simp

theorem post_sound {e : Exporter} (sound : e.Sound digest nodeId) {batch : List SpanRecord}
    (filling : e.stage = .filling batch) : (e.post digest cfg nodeId batch).Sound digest nodeId := by
  have held : e.batch = batch := by
    rw [Exporter.batch, filling]
  have counted := (report_sound sound).lost
  have sentToo : (e.post digest cfg nodeId batch).sent = e.sent ++ batch := by
    simp [sent, post, report]
  refine ⟨⟨?_, counted, sound.depth, Nat.zero_le _, ?_, ?_, ?_⟩, ?_, ?_⟩
  · rw [sentToo]
    show e.taken = e.sent ++ batch ++ [] ++ e.queue
    rw [sound.taken, held, List.append_nil]
  · intro post listed
    rcases List.mem_append.mp listed with before | now
    · exact sound.posts post before
    · obtain rfl := List.mem_singleton.mp now
      exact ⟨sound.filled batch filling, held ▸ sound.cap⟩
  · rw [sentToo, spansJson_append, Nat.zero_add, ← sound.seq, ← sound.numbered]
    simp [post, report, exportedSpans_otlpTracesJson]
  · intro ended
    cases ended
  · rw [sentToo, List.length_append, ← sound.seq]
    rfl
  · intro _ filling
    cases filling

theorem sound_step : Runs.Preserves (step digest cfg nodeId) (Sound digest nodeId) := by
  intro e action t sound stepped
  cases action with
  | record span =>
    obtain ⟨opened, same⟩ := Option.ite_none_right_eq_some.mp stepped
    obtain rfl := Option.some.inj same
    exact trySend_sound sound opened span
  | count =>
    obtain ⟨some_, same⟩ := Option.ite_none_left_eq_some.mp stepped
    obtain rfl := Option.some.inj same
    have counted := sound.lost
    refine { sound with lost := ?_ }
    show e.lost = e.failing - 1 + (e.dropped + 1) + e.reported
    omega
  | close =>
    obtain ⟨-, same⟩ := Option.ite_none_right_eq_some.mp stepped
    obtain rfl := Option.some.inj same
    exact { sound with ended := fun ended => ⟨(sound.ended ended).1, rfl⟩ }
  | receive =>
    simp only [step] at stepped
    split at stepped
    · rename_i span rest first idle
      obtain rfl := Option.some.inj stepped
      have none : e.batch = [] := by
        rw [batch, idle]
      have received := receive_sound sound first (by rw [none]; decide)
      rwa [none] at received
    · rename_i span rest held first filling
      obtain ⟨room, same⟩ := Option.ite_none_right_eq_some.mp stepped
      obtain rfl := Option.some.inj same
      have batched : e.batch = held := by
        rw [batch, filling]
      have received := receive_sound sound first (batched.symm ▸ room)
      rwa [batched] at received
    · cases stepped
  | elapse =>
    simp only [step] at stepped
    split at stepped
    · rename_i empty idle
      obtain rfl := Option.some.inj stepped
      split
      · exact report_sound sound
      · rename_i closed
        have none : e.batch = [] := by
          rw [batch, idle]
        refine { sound with taken := ?_, cap := Nat.zero_le _, ended := ?_, filled := ?_ }
        · show e.taken = e.sent ++ [] ++ e.queue
          rw [sound.taken, none]
        · exact fun _ => ⟨empty, by simpa using closed⟩
        · intro _ filling
          cases filling
    · cases stepped
  | flush =>
    simp only [step] at stepped
    split at stepped
    · rename_i held filling
      obtain ⟨-, same⟩ := Option.ite_none_right_eq_some.mp stepped
      obtain rfl := Option.some.inj same
      exact post_sound sound filling
    · cases stepped
  | answered =>
    simp only [step] at stepped
    split at stepped
    · rename_i held posting
      obtain rfl := Option.some.inj stepped
      have none : e.batch = [] := by
        rw [batch, posting]
      refine { sound with taken := ?_, cap := Nat.zero_le _, ended := ?_, filled := ?_ }
      · show e.taken = e.sent ++ [] ++ e.queue
        rw [sound.taken, none]
      · intro ended
        cases ended
      · intro _ filling
        cases filling
    · cases stepped

end Exporter

end

/-! ### Runs -/

/-- For every interleaving of the requests with the thread: what the queue took is what has been posted, the batch that
    is under way and what waits, each span once and in order; what it did not take is counted or about to be; no batch
    is empty or too large; the spans that a collector finds in the posts are those of the batches, numbered from one;
    and where the thread has ended nothing waits. -/
theorem spans_conserved (digest : List UInt8 → List UInt8) (cfg : OtlpConfig) (nodeId : String) (actions : List Action)
    (e : Exporter) (executed : Runs.exec (Exporter.step digest cfg nodeId) Exporter.spawn actions = some e) :
    e.Conserved digest nodeId :=
  (Runs.exec_preserves Exporter.sound_step Exporter.spawn_sound executed).toConserved

/-! ### Ids -/

section

variable {digest : List UInt8 → List UInt8} {nodeId : String}

/-- What the ids of numbered spans are derived from. -/
def idTexts (nodeId : String) : Nat → List SpanRecord → List String
  | _, [] => []
  | seq, s :: batch => idText nodeId (seq + 1) s :: idTexts nodeId (seq + 1) batch

/-- The text of an id tells the number of its span. -/
theorem idText_seq {seq other : Nat} {s t : SpanRecord} (same : idText nodeId seq s = idText nodeId other t) :
    seq = other := by
  have chars : nodeId.toList ++ '|' :: ((Nat.repr seq).toList ++ '|' :: (Nat.repr s.startUnixNanos).toList) =
      nodeId.toList ++ '|' :: ((Nat.repr other).toList ++ '|' :: (Nat.repr t.startUnixNanos).toList) := by
    simpa [idText] using congrArg String.toList same
  have numbers := (List.cons.inj (List.append_cancel_left chars)).2
  have bar (n : Nat) : '|' ∉ (Nat.repr n).toList := Text.not_mem_repr (by decide) n
  exact Nat.repr_injective (String.toList_inj.mp (Records.split_injective (bar seq) (bar other) numbers).1)

theorem mem_idTexts {seq : Nat} {batch : List SpanRecord} {text : String} (inside : text ∈ idTexts nodeId seq batch) :
    ∃ number s, seq < number ∧ text = idText nodeId number s := by
  induction batch generalizing seq with
  | nil => cases inside
  | cons s rest ih =>
    rcases List.mem_cons.mp inside with rfl | later
    · exact ⟨seq + 1, s, Nat.lt_succ_self seq, rfl⟩
    · obtain ⟨number, t, after, same⟩ := ih later
      exact ⟨number, t, by omega, same⟩

theorem idTexts_nodup (seq : Nat) (batch : List SpanRecord) : (idTexts nodeId seq batch).Nodup := by
  induction batch generalizing seq with
  | nil => exact .nil
  | cons s rest ih =>
    refine List.nodup_cons.mpr ⟨fun again => ?_, ih (seq + 1)⟩
    obtain ⟨number, t, after, same⟩ := mem_idTexts again
    have := idText_seq same
    omega

/-- The id that a collector finds in a span. -/
def foundId (span : Value) : Value := span.get "traceId"

theorem foundId_spansJson (seq : Nat) (batch : List SpanRecord) :
    (spansJson digest nodeId seq batch).map foundId = (idTexts nodeId seq batch).map fun text =>
      .string (Text.hex ((digest (Text.utf8Bytes text)).take 16)) := by
  induction batch generalizing seq with
  | nil => rfl
  | cons s rest ih =>
    have found : foundId (spanJson digest nodeId (seq + 1) s) = .string (traceId digest nodeId (seq + 1) s) := rfl
    have first : traceId digest nodeId (seq + 1) s =
        Text.hex ((digest (Text.utf8Bytes (idText nodeId (seq + 1) s))).take 16) := by
      rw [traceId, idDigest, Text.hex_take 16, String.ofList_toList]
    rw [spansJson, List.map_cons, ih, idTexts, List.map_cons, found, first]

end

/-- The trace ids of all spans that are posted are distinct, where the digest tells what they are derived from apart by
    its first half. -/
theorem trace_ids_distinct (digest : List UInt8 → List UInt8) (cfg : OtlpConfig) (nodeId : String)
    (actions : List Action) (e : Exporter)
    (executed : Runs.exec (Exporter.step digest cfg nodeId) Exporter.spawn actions = some e)
    (apart : Set.InjOn (fun text => (digest (Text.utf8Bytes text)).take 16) {text | text ∈ idTexts nodeId 0 e.sent}) :
    ((e.posted.flatMap fun post => exportedSpans post.2).map foundId).Nodup := by
  have conserved := (Runs.exec_preserves Exporter.sound_step Exporter.spawn_sound executed).numbered
  rw [conserved, foundId_spansJson]
  refine List.Nodup.map_on (fun text first other second same => ?_) (idTexts_nodup 0 e.sent)
  exact apart first second (Text.hex_injective (Value.string.inj same))

/-! ### A collector that answers -/

def teamSpan (start : Nat) : SpanRecord where
  startUnixNanos := start
  endUnixNanos := start + 1
  method := "POST"
  path := "/openai/v1/chat"
  status := some 200
  route := some "/openai"
  provider := some "openai"
  attribution := [("team", "ml")]
  tokensEstimated := 42
  tokensAuthoritative := some 40
  cut := false
  disposition := some "completed+frame"
  configVersion := 7
  error := none

def collector : OtlpConfig := ⟨⟨"collector", 4318⟩, "gatewayd", 5⟩

/-- Two spans go out together and a third one behind them, and then the gateway ends. -/
def threeSpans : List Action :=
  [.record (teamSpan 5), .receive, .record (teamSpan 5), .receive, .flush, .record (teamSpan 6), .answered, .close,
    .receive, .flush, .answered, .elapse]

def afterThree : Exporter :=
  (Runs.exec (Exporter.step Sha256.sha256 collector "n1") Exporter.spawn threeSpans).getD Exporter.spawn

theorem threeSpans_executed :
    Runs.exec (Exporter.step Sha256.sha256 collector "n1") Exporter.spawn threeSpans = some afterThree :=
  Runs.exec_eq_getD _ _ _ (by decide) _

theorem threeSpans_conserved :
    afterThree.sent = [teamSpan 5, teamSpan 5, teamSpan 6] ∧ afterThree.Conserved Sha256.sha256 "n1" :=
  ⟨by decide, spans_conserved _ _ _ threeSpans afterThree threeSpans_executed⟩

theorem threeSpans_distinct :
    ((afterThree.posted.flatMap fun post => exportedSpans post.2).map foundId).Nodup := by
  have sent : afterThree.sent = [teamSpan 5, teamSpan 5, teamSpan 6] := by decide
  have apart : ∀ text ∈ idTexts "n1" 0 [teamSpan 5, teamSpan 5, teamSpan 6],
      ∀ other ∈ idTexts "n1" 0 [teamSpan 5, teamSpan 5, teamSpan 6],
        (Sha256.sha256 (Text.utf8Bytes text)).take 16 = (Sha256.sha256 (Text.utf8Bytes other)).take 16 →
          text = other := by
    decide +kernel
  refine trace_ids_distinct _ _ _ threeSpans afterThree threeSpans_executed ?_
  rw [sent]
  exact fun text first other second same => apart text first other second same

end SmallGateway.Otel
