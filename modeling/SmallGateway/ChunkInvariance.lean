import SmallGateway.Lib.Framing
import SmallGateway.ResponseTap

/-!
The events of a body against the chunks it arrives in. The framing of server-sent events reads the same blocks
however the bytes are cut, and the adapters carry their state over, so the canonical events are the same
(`BodyTap.sse_chunks_invariant`). The frame decoder gives up a whole feed at a malformed frame, so the frames that
precede it depend on the chunks (`EventStream.chunks_invariant_iff`).
-/

namespace SmallGateway

open Framing (Reader)

variable {json : JsonText} {crc32 : List UInt8 → Nat}

@[simp] theorem Adapter.feed_nil (adapter : Adapter) : adapter.feed json [] = ([], adapter) := rfl

/-- The messages after a first part are read in the state that part leaves. -/
theorem Adapter.feed_append (adapter : Adapter) (messages more : List Message) :
    adapter.feed json (messages ++ more) =
      ((adapter.feed json messages).1 ++ ((adapter.feed json messages).2.feed json more).1,
        ((adapter.feed json messages).2.feed json more).2) := by
  induction more using List.reverseRec with
  | nil => simp
  | append_singleton more message ih =>
    rw [← List.append_assoc]
    simp only [Adapter.feed] at ih ⊢
    rw [List.foldl_append, ih, List.foldl_append]
    simp

namespace BodyTap

variable (json crc32) in
/-- The events of a body that arrives in chunks, and the tap after it. -/
def feedAll (tap : BodyTap) : List (List UInt8) → List Event × BodyTap
  | [] => ([], tap)
  | chunk :: rest =>
    let (events, tap) := tap.feed json crc32 chunk
    let (more, tap) := feedAll tap rest
    (events ++ more, tap)

theorem feedAll_cons (tap : BodyTap) (chunk : List UInt8) (rest : List (List UInt8)) :
    tap.feedAll json crc32 (chunk :: rest) =
      ((tap.feed json crc32 chunk).1 ++ ((tap.feed json crc32 chunk).2.feedAll json crc32 rest).1,
        ((tap.feed json crc32 chunk).2.feedAll json crc32 rest).2) := rfl

@[simp] theorem feedAll_singleton (tap : BodyTap) (bytes : List UInt8) :
    tap.feedAll json crc32 [bytes] = tap.feed json crc32 bytes := by
  simp [feedAll]

end BodyTap

/-! ### Server-sent events -/

namespace SseParser

theorem takeBlock_shrinks {buf block left : List UInt8} (taken : takeBlock buf = some (block, left)) :
    left.length < buf.length := by
  induction buf using takeBlock.induct generalizing block with
  | case1 rest =>
    simp only [takeBlock, Option.some.injEq, Prod.mk.injEq] at taken
    rw [← taken.2, List.length_cons, List.length_cons]
    omega
  | case2 byte rest other ih =>
    rw [takeBlock] at taken
    · obtain ⟨⟨inner, after⟩, found, same⟩ := Option.map_eq_some_iff.mp taken
      cases same
      exact Nat.lt_succ_of_lt (ih found)
    · exact other
  | case3 => simp [takeBlock] at taken

theorem takeBlock_stable {buf block left : List UInt8} (taken : takeBlock buf = some (block, left))
    (more : List UInt8) : takeBlock (buf ++ more) = some (block, left ++ more) := by
  induction buf using takeBlock.induct generalizing block with
  | case1 rest =>
    simp only [takeBlock, Option.some.injEq, Prod.mk.injEq] at taken
    obtain ⟨rfl, rfl⟩ := taken
    rfl
  | case2 byte rest other ih =>
    rw [takeBlock] at taken
    · obtain ⟨⟨inner, after⟩, found, same⟩ := Option.map_eq_some_iff.mp taken
      cases same
      have unfinished : ∀ after, byte = 10 → rest ++ more = 10 :: after → False := by
        intro after newline next
        cases rest with
        | nil => simp [takeBlock] at found
        | cons head tail => exact other tail newline (by simpa using (List.cons.inj next).1)
      rw [List.cons_append, takeBlock]
      · rw [ih found]
        rfl
      · exact unfinished
    · exact other
  | case3 => simp [takeBlock] at taken

/-- The blocks of a body, each without the blank line that ends it. -/
def blocks : Reader (List UInt8) UInt8 := ⟨takeBlock, takeBlock_shrinks, takeBlock_stable⟩

theorem blocks_take (buf : List UInt8) : blocks.take buf = takeBlock buf := rfl

theorem drain_eq (fuel : Nat) (buf : List UInt8) :
    drain fuel buf = ((blocks.items fuel buf).1.filterMap parseBlock, (blocks.items fuel buf).2) := by
  induction fuel generalizing buf with
  | zero => rfl
  | succ fuel ih =>
    rw [drain, Reader.items, blocks_take]
    cases takeBlock buf with
    | none => rfl
    | some result =>
      simp only [ih, List.filterMap_cons]
      cases parseBlock result.1 <;> rfl

theorem feed_eq (parser : SseParser) (bytes : List UInt8) :
    parser.feed bytes = ((blocks.feed parser.buf (bytes.filter (· ≠ 13))).1.filterMap parseBlock,
      ⟨(blocks.feed parser.buf (bytes.filter (· ≠ 13))).2⟩) := by
  simp only [feed, drain_eq]
  rfl

/-- The messages of some blocks. -/
def messages (found : List (List UInt8)) : List Message :=
  (found.filterMap parseBlock).map fun event => .data event.data

end SseParser

namespace BodyTap

open SseParser (blocks)

theorem feed_sse (parser : SseParser) (adapter : Adapter) (bytes : List UInt8) :
    (sse parser adapter).feed json crc32 bytes =
      let read := blocks.feed parser.buf (bytes.filter (· ≠ 13))
      ((adapter.feed json (SseParser.messages read.1)).1,
        sse ⟨read.2⟩ (adapter.feed json (SseParser.messages read.1)).2) := by
  simp only [feed, SseParser.feed_eq, SseParser.messages]
  rfl

/-- The chunks of a body are read as their blocks. -/
theorem feedAll_sse (parser : SseParser) (adapter : Adapter) (chunks : List (List UInt8)) :
    (sse parser adapter).feedAll json crc32 chunks =
      let read := blocks.feedAll parser.buf (chunks.map (List.filter (· ≠ 13)))
      ((adapter.feed json (SseParser.messages read.1)).1,
        sse ⟨read.2⟩ (adapter.feed json (SseParser.messages read.1)).2) := by
  induction chunks generalizing parser adapter with
  | nil => rfl
  | cons chunk rest ih =>
    simp only [feedAll_cons, feed_sse, ih, List.map_cons, Reader.feedAll_cons]
    simp [SseParser.messages, Adapter.feed_append]

/-- Feeding a body chunk by chunk gives the events, and the state, of feeding it at once. -/
theorem sse_chunks_invariant (kind : ProviderKind) (textual : kind ≠ .bedrock) (chunks : List (List UInt8)) :
    kind.bodyTap.feedAll json crc32 chunks = kind.bodyTap.feed json crc32 chunks.flatten := by
  have start : kind.bodyTap = sse .new kind.newAdapter := by
    cases kind with
    | bedrock => exact absurd rfl textual
    | _ => rfl
  have cut : ∀ chunks : List (List UInt8), blocks.feedAll SseParser.new.buf (chunks.map (List.filter (· ≠ 13))) =
      blocks.drain (chunks.flatten.filter (· ≠ 13)) := by
    intro chunks
    rw [Reader.feedAll_eq_drain rfl, List.filter_flatten]
    rfl
  rw [start, ← feedAll_singleton, feedAll_sse, feedAll_sse, cut, cut, List.flatten_singleton]

/-- The data of a chunk with a word outside of ASCII. -/
def naiveData : String := "\x7b\"choices\":[\x7b\"delta\":\x7b\"content\":\"naïve\"\x7d\x7d]\x7d"

/-- A JSON library on the text above. -/
def naiveJson : JsonText where
  fromStr text :=
    if text = naiveData then
      .ok (.object [("choices", .array [.object [("delta", .object [("content", .string "naïve")])]])])
    else .error "expected value at line 1 column 1"
  fromSlice _ := .error "expected value at line 1 column 1"
  toText _ := "null"
  toVec _ := []

/-- A body that is cut inside a character and inside the line breaks that end its blocks. -/
def cutBody : List (List UInt8) :=
  let body := ("data: " ++ naiveData ++ "\r\n\r\ndata: [DONE]\r\n\r\n").toUTF8.toList
  [body.take 42, (body.drop 42).take 9, (body.drop 51).take 2, body.drop 53]

theorem cut_body_invariant :
    ProviderKind.openai.bodyTap.feedAll naiveJson (fun _ => 0) cutBody =
        ProviderKind.openai.bodyTap.feed naiveJson (fun _ => 0) cutBody.flatten ∧
      (ProviderKind.openai.bodyTap.feedAll naiveJson (fun _ => 0) cutBody).1 =
        [.messageStart none none, .contentDelta 0 "naïve", .messageEnd none] :=
  ⟨sse_chunks_invariant .openai (by decide) cutBody, by decide +kernel⟩

end BodyTap

/-! ### Event-stream frames -/

namespace EventStream

open Framing (sound)

variable (crc32) in
/-- The frame at the front of a buffer, or what is wrong with it. Where a frame is too short, nothing says where
    the next one starts. -/
def takeFrame (buf : List UInt8) : Option (Except String Frame × List UInt8) :=
  if buf.length < 12 then none
  else
    let total := fromBeBytes (buf.take 4)
    if total < 16 then some (.error ("frame too short: " ++ toString total ++ " bytes"), buf.drop 12)
    else if buf.length < total then none
    else some (decodeFrame crc32 (buf.take total), buf.drop total)

theorem takeFrame_eq_some {buf left : List UInt8} {item : Except String Frame} :
    takeFrame crc32 buf = some (item, left) ↔
      let total := fromBeBytes (buf.take 4)
      12 ≤ buf.length ∧
        ((total < 16 ∧ item = .error ("frame too short: " ++ toString total ++ " bytes") ∧ left = buf.drop 12) ∨
          (16 ≤ total ∧ total ≤ buf.length ∧ item = decodeFrame crc32 (buf.take total) ∧ left = buf.drop total)) := by
  simp only [takeFrame]
  generalize fromBeBytes (buf.take 4) = total
  by_cases short : buf.length < 12
  · simp [short]
  · by_cases tiny : total < 16
    · simp [short, tiny, Nat.not_le.mpr tiny, Nat.not_lt.mp short, eq_comm]
    · by_cases unfinished : buf.length < total
      · simp [short, tiny, unfinished]
      · simp [short, tiny, unfinished, Nat.not_lt.mp tiny, Nat.not_lt.mp short, Nat.not_lt.mp unfinished, eq_comm]

theorem takeFrame_shrinks {buf left : List UInt8} {item : Except String Frame}
    (taken : takeFrame crc32 buf = some (item, left)) : left.length < buf.length := by
  obtain ⟨complete, ⟨-, -, rfl⟩ | ⟨long, -, -, rfl⟩⟩ := takeFrame_eq_some.mp taken
  · rw [List.length_drop]
    omega
  · rw [List.length_drop]
    omega

theorem takeFrame_stable {buf left : List UInt8} {item : Except String Frame}
    (taken : takeFrame crc32 buf = some (item, left)) (more : List UInt8) :
    takeFrame crc32 (buf ++ more) = some (item, left ++ more) := by
  obtain ⟨complete, read⟩ := takeFrame_eq_some.mp taken
  have prelude : (buf ++ more).take 4 = buf.take 4 := List.take_append_of_le_length (by omega)
  refine takeFrame_eq_some.mpr ⟨by simp; omega, ?_⟩
  rw [prelude]
  rcases read with ⟨tiny, rfl, rfl⟩ | ⟨long, fits, rfl, rfl⟩
  · exact Or.inl ⟨tiny, rfl, (List.drop_append_of_le_length complete).symm⟩
  · refine Or.inr ⟨long, by simp; omega, ?_, (List.drop_append_of_le_length fits).symm⟩
    rw [List.take_append_of_le_length fits]

variable (crc32) in
/-- The frames of a byte string, each as it decodes. -/
def frames : Reader (Except String Frame) UInt8 := ⟨takeFrame crc32, takeFrame_shrinks, takeFrame_stable⟩

theorem frames_take (buf : List UInt8) : (frames crc32).take buf = takeFrame crc32 buf := rfl

namespace FrameDecoder

variable (crc32) in
/-- What each chunk of a body decodes to. -/
def feedAll (decoder : FrameDecoder) : List (List UInt8) → List (Except String (List Frame))
  | [] => []
  | chunk :: rest =>
    let (decoded, decoder) := decoder.feed crc32 chunk
    decoded :: feedAll decoder rest

end FrameDecoder

/-- The frames that some feeds decode, one after the other, up to the first error, and that error. -/
def decoded (feeds : List (Except String (List Frame))) : List Frame × Option String :=
  ((sound feeds).1.flatten, (sound feeds).2)

/-- A feed with an error gives no frame. -/
theorem drain_eq (crc32 : List UInt8 → Nat) (fuel : Nat) (buf : List UInt8) :
    (FrameDecoder.drain crc32 fuel buf).1 =
        (match (sound ((frames crc32).items fuel buf).1).2 with
          | some message => .error message
          | none => .ok (sound ((frames crc32).items fuel buf).1).1) ∧
      ((sound ((frames crc32).items fuel buf).1).2 = none →
        (FrameDecoder.drain crc32 fuel buf).2 = ((frames crc32).items fuel buf).2) := by
  induction fuel generalizing buf with
  | zero => exact ⟨rfl, fun _ => rfl⟩
  | succ fuel ih =>
    rw [FrameDecoder.drain, Reader.items, frames_take, takeFrame]
    by_cases short : buf.length < 12
    · simp [short, sound]
    · by_cases tiny : fromBeBytes (buf.take 4) < 16
      · simp [short, tiny, sound]
      · by_cases unfinished : buf.length < fromBeBytes (buf.take 4)
        · simp [short, tiny, unfinished, sound]
        · simp only [short, tiny, unfinished, if_false]
          cases decodeFrame crc32 (buf.take (fromBeBytes (buf.take 4))) with
          | error message => simp [sound]
          | ok frame =>
            obtain ⟨same, left⟩ := ih (buf.drop (fromBeBytes (buf.take 4)))
            simp only [sound, same]
            refine ⟨?_, left⟩
            cases (sound ((frames crc32).items fuel (buf.drop (fromBeBytes (buf.take 4)))).1).2 <;> rfl

/-- A chunk that completes no malformed frame is decoded as its frames. -/
theorem feed_sound {held chunk : List UInt8} (well : (sound ((frames crc32).feed held chunk).1).2 = none) :
    FrameDecoder.feed crc32 ⟨held⟩ chunk =
      (.ok (sound ((frames crc32).feed held chunk).1).1, ⟨((frames crc32).feed held chunk).2⟩) := by
  obtain ⟨same, left⟩ := drain_eq crc32 (held ++ chunk).length (held ++ chunk)
  have well' : (sound ((frames crc32).items (held ++ chunk).length (held ++ chunk)).1).2 = none := well
  simp only [FrameDecoder.feed]
  rw [same, left well', well']
  rfl

/-- A chunk that completes a malformed frame is decoded as its error. -/
theorem feed_malformed {held chunk : List UInt8} {message : String}
    (malformed : (sound ((frames crc32).feed held chunk).1).2 = some message) :
    (FrameDecoder.feed crc32 ⟨held⟩ chunk).1 = .error message := by
  have malformed' : (sound ((frames crc32).items (held ++ chunk).length (held ++ chunk)).1).2 = some message :=
    malformed
  simp only [FrameDecoder.feed]
  rw [(drain_eq crc32 (held ++ chunk).length (held ++ chunk)).1, malformed']

variable (crc32) in
/-- The frames of a byte string before the first malformed one, and what is wrong with that one. -/
def read (bytes : List UInt8) : List Frame × Option String := sound ((frames crc32).drain bytes).1

/-- What is read of a stream that continues: the frames of the first part, then those of the rest. -/
theorem read_append {first : List UInt8} (well : (read crc32 first).2 = none) (rest : List UInt8) :
    read crc32 (first ++ rest) =
      ((read crc32 first).1 ++ (read crc32 (((frames crc32).drain first).2 ++ rest)).1,
        (read crc32 (((frames crc32).drain first).2 ++ rest)).2) := by
  unfold read at well ⊢
  rw [Reader.drain_append, Framing.sound_append well]

theorem read_append_malformed {first : List UInt8} {message : String} (malformed : (read crc32 first).2 = some message)
    (rest : List UInt8) : read crc32 (first ++ rest) = read crc32 first := by
  unfold read at malformed ⊢
  rw [Reader.drain_append, Framing.sound_append_failed malformed]

/-- A malformed frame loses no frame: there is none, or no frame precedes the first one. -/
def LosesNone (crc32 : List UInt8 → Nat) (bytes : List UInt8) : Prop :=
  (read crc32 bytes).2 = none ∨ (read crc32 bytes).1 = []

theorem decoded_cons_ok (frames : List Frame) (feeds : List (Except String (List Frame))) :
    decoded (.ok frames :: feeds) = (frames ++ (decoded feeds).1, (decoded feeds).2) := rfl

theorem decoded_cons_error (message : String) (feeds : List (Except String (List Frame))) :
    decoded (.error message :: feeds) = ([], some message) := rfl

/-- Where no frame is lost, the chunks of a stream decode to its frames and its error. -/
theorem decoded_feedAll {held : List UInt8} (incomplete : (frames crc32).take held = none) (chunks : List (List UInt8))
    (kept : LosesNone crc32 (held ++ chunks.flatten)) :
    decoded (FrameDecoder.feedAll crc32 ⟨held⟩ chunks) = read crc32 (held ++ chunks.flatten) := by
  induction chunks generalizing held with
  | nil =>
    rw [List.flatten_nil, List.append_nil, read, Reader.drain_none incomplete]
    rfl
  | cons chunk rest ih =>
    rw [List.flatten_cons, ← List.append_assoc] at kept ⊢
    rw [FrameDecoder.feedAll]
    cases found : (read crc32 (held ++ chunk)).2 with
    | some message =>
      rw [LosesNone, read_append_malformed found, found] at kept
      rw [read_append_malformed found]
      have none : (read crc32 (held ++ chunk)).1 = [] := kept.resolve_left (by simp)
      simp only [feed_malformed found, decoded_cons_error]
      exact Prod.ext none.symm found.symm
    | none =>
      rw [LosesNone, read_append found] at kept
      have others := ih ((frames crc32).take_drain (held ++ chunk))
        (kept.imp_right fun empty => (List.append_eq_nil_iff.mp empty).2)
      rw [read_append found, ← others]
      simp only [feed_sound found, decoded_cons_ok]
      rfl

/-- The canonical events up to the first error, and that error. -/
def throughError : List Event → List Event
  | [] => []
  | .error code message :: _ => [.error code message]
  | event :: rest => event :: throughError rest

theorem throughError_append {events others : List Event} (same : throughError events = throughError others)
    (first : List Event) : throughError (first ++ events) = throughError (first ++ others) := by
  induction first with
  | nil => exact same
  | cons event rest ih => cases event <;> simp [throughError, ih]

/-- The event of a malformed frame. -/
def badFrame (failure : Option String) : List Event := (failure.map (Event.error "bad_frame")).toList

/-- Where no frame is lost, the events of a stream are those of its frames and of its error. -/
theorem events_feedAll {held : List UInt8} (incomplete : (frames crc32).take held = none) (adapter : Adapter)
    (chunks : List (List UInt8)) (kept : LosesNone crc32 (held ++ chunks.flatten)) :
    throughError ((BodyTap.frames ⟨held⟩ adapter).feedAll json crc32 chunks).1 =
      throughError ((adapter.feed json ((read crc32 (held ++ chunks.flatten)).1.map Frame.message)).1 ++
        badFrame (read crc32 (held ++ chunks.flatten)).2) := by
  induction chunks generalizing held adapter with
  | nil =>
    rw [List.flatten_nil, List.append_nil, read, Reader.drain_none incomplete]
    rfl
  | cons chunk rest ih =>
    rw [List.flatten_cons, ← List.append_assoc] at kept ⊢
    rw [BodyTap.feedAll_cons]
    cases found : (read crc32 (held ++ chunk)).2 with
    | some message =>
      rw [LosesNone, read_append_malformed found, found] at kept
      have none : (read crc32 (held ++ chunk)).1 = [] := kept.resolve_left (by simp)
      have failed : ((BodyTap.frames ⟨held⟩ adapter).feed json crc32 chunk).1 = [.error "bad_frame" message] := by
        obtain ⟨decoder, fails⟩ : ∃ decoder, FrameDecoder.feed crc32 ⟨held⟩ chunk = (.error message, decoder) :=
          ⟨_, Prod.ext (feed_malformed found) rfl⟩
        rw [BodyTap.feed, fails]
      rw [failed, read_append_malformed found, none, found]
      rfl
    | none =>
      rw [LosesNone, read_append found] at kept
      have others := ih ((frames crc32).take_drain (held ++ chunk))
        (adapter.feed json ((read crc32 (held ++ chunk)).1.map Frame.message)).2
        (kept.imp_right fun empty => (List.append_eq_nil_iff.mp empty).2)
      have fed : (BodyTap.frames ⟨held⟩ adapter).feed json crc32 chunk =
          ((adapter.feed json ((read crc32 (held ++ chunk)).1.map Frame.message)).1,
            .frames ⟨((frames crc32).drain (held ++ chunk)).2⟩
              (adapter.feed json ((read crc32 (held ++ chunk)).1.map Frame.message)).2) := by
        simp only [BodyTap.feed, feed_sound found]
        rfl
      rw [fed, read_append found, List.map_append, Adapter.feed_append, List.append_assoc]
      exact throughError_append others _

theorem decoded_new {chunks : List (List UInt8)} (kept : LosesNone crc32 chunks.flatten) :
    decoded (FrameDecoder.feedAll crc32 .new chunks) = read crc32 chunks.flatten := decoded_feedAll rfl chunks kept

theorem events_new {chunks : List (List UInt8)} (kept : LosesNone crc32 chunks.flatten) :
    throughError (ProviderKind.bedrock.bodyTap.feedAll json crc32 chunks).1 =
      throughError
        (((ProviderKind.newAdapter .bedrock).feed json ((read crc32 chunks.flatten).1.map Frame.message)).1 ++
          badFrame (read crc32 chunks.flatten).2) := events_feedAll rfl _ chunks kept

/-- What a stream of frames gives does not depend on its chunks: the frames and the canonical events, each up to the
    first error, are those of the whole string, and no frame that precedes a malformed one is lost. -/
structure Invariant (json : JsonText) (crc32 : List UInt8 → Nat) (chunks : List (List UInt8)) : Prop where
  frames : decoded (FrameDecoder.feedAll crc32 .new chunks) =
    decoded (FrameDecoder.feedAll crc32 .new [chunks.flatten])
  events : throughError (ProviderKind.bedrock.bodyTap.feedAll json crc32 chunks).1 =
    throughError (ProviderKind.bedrock.bodyTap.feed json crc32 chunks.flatten).1
  kept : ∀ preceding message, read crc32 chunks.flatten = (preceding, some message) →
    (decoded (FrameDecoder.feedAll crc32 .new chunks)).1 = preceding

/-- A malformed frame in the whole string gives its error alone. -/
theorem decoded_whole {bytes : List UInt8} {message : String} (malformed : (read crc32 bytes).2 = some message) :
    decoded (FrameDecoder.feedAll crc32 .new [bytes]) = ([], some message) := by
  have failed : (FrameDecoder.feed crc32 .new bytes).1 = .error message := feed_malformed malformed
  simp only [FrameDecoder.feedAll, failed, decoded_cons_error]

/-- The chunks of a stream do not matter exactly when no frame precedes its first malformed frame. -/
theorem chunks_invariant_iff (json : JsonText) (crc32 : List UInt8 → Nat) (chunks : List (List UInt8)) :
    Invariant json crc32 chunks ↔ LosesNone crc32 chunks.flatten := by
  constructor
  · intro invariant
    cases found : (read crc32 chunks.flatten).2 with
    | none => exact Or.inl found
    | some message =>
      have kept := invariant.kept _ message (Prod.ext rfl found)
      rw [invariant.frames, decoded_whole found] at kept
      exact Or.inr kept.symm
  · intro kept
    have whole : LosesNone crc32 [chunks.flatten].flatten := by simpa using kept
    refine ⟨?_, ?_, fun preceding message reading => ?_⟩
    · rw [decoded_new kept, decoded_new whole, List.flatten_singleton]
    · rw [← BodyTap.feedAll_singleton, events_new kept, events_new whole, List.flatten_singleton]
    · rw [decoded_new kept, reading]

/-- A frame without headers and payload, and the start of a frame that says its length is zero. -/
def emptyFrame : List UInt8 := [0, 0, 0, 16, 0, 0, 0, 0, 5, 194, 72, 235, 125, 152, 200, 255]

def tooShort : List UInt8 := List.replicate 12 0

/-- The checksum on the two prefixes of the empty frame that carry one. -/
def emptyFrameCrc32 (bytes : List UInt8) : Nat :=
  if bytes = emptyFrame.take 8 then 96618731 else if bytes = emptyFrame.take 12 then 2107164927 else 0

/-- A frame that arrives in a chunk of its own is decoded; in one chunk with the malformed frame that follows it is
    lost. -/
theorem frame_lost_beside_malformed :
    ¬ ∀ (json : JsonText) (crc32 : List UInt8 → Nat) (chunks : List (List UInt8)), Invariant json crc32 chunks := by
  intro claimed
  have same := (claimed ⟨fun _ => .error "", fun _ => .error "", fun _ => "null", fun _ => []⟩ emptyFrameCrc32
    [emptyFrame, tooShort]).frames
  revert same
  decide

end EventStream

end SmallGateway
