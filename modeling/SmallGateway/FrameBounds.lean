import SmallGateway.FrameRoundTrip
import SmallGateway.Lib.Faults

/-!
The bounds of the frame decoder: with every index, slice, `unwrap` and sum of the source checked, no length field and no
header byte makes it fault, and its loop is through (`FrameDecoder.in_bounds`).
-/

namespace SmallGateway.EventStream

open Faults

namespace Checked

/-- Where a header ends a pass of the loop over the headers, and the header. -/
abbrev Header : Type := (String × String) × Nat

/-- The header at a position. -/
def decodeHeader (frame : List UInt8) (headersEnd pos : Nat) : Checked (Except String Header) := do
  let nameLen := (← index frame pos).toNat
  let pos ← plus pos 1
  if (← plus (← plus pos nameLen) 3) > headersEnd then return .error "truncated header"
  let name := Text.fromUtf8Lossy (← part frame pos (← plus pos nameLen))
  let pos ← plus pos nameLen
  let valueType := (← index frame pos).toNat
  let pos ← plus pos 1
  if valueType ≠ 7 then return .error ("unsupported header value type " ++ toString valueType)
  let valueLen ← number 2 (← part frame pos (← plus pos 2))
  let pos ← plus pos 2
  if (← plus pos valueLen) > headersEnd then return .error "truncated header value"
  let value := Text.fromUtf8Lossy (← part frame pos (← plus pos valueLen))
  let pos ← plus pos valueLen
  return .ok ((name, value), pos)

/-- A position among the headers, and the headers before it. -/
abbrev Cursor : Type := Nat × List (String × String)

/-- A pass of the loop over the headers. -/
def headersPass (frame : List UInt8) (headersEnd : Nat) (cursor : Cursor) :
    Checked (Cursor ⊕ Except String (List (String × String))) := do
  let (pos, headers) := cursor
  if pos < headersEnd then
    match ← decodeHeader frame headersEnd pos with
    | .error message => return .inr (.error message)
    | .ok (header, pos) => return .inl (pos, header :: headers)
  else return .inr (.ok headers)

variable (crc32 : List UInt8 → Nat)

def decodeFrame (passes : Nat) (frame : List UInt8) : Checked (Except String Frame) := do
  let headersLen ← number 4 (← part frame 4 8)
  let preludeCrc ← number 4 (← part frame 8 12)
  if crc32 (← part frame 0 8) ≠ preludeCrc then return .error "prelude CRC mismatch"
  let msgCrcOffset ← minus frame.length 4
  let messageCrc ← number 4 (← part frame msgCrcOffset frame.length)
  if crc32 (← part frame 0 msgCrcOffset) ≠ messageCrc then return .error "message CRC mismatch"
  let headersEnd ← plus 12 headersLen
  if headersEnd > msgCrcOffset then return .error "headers overrun payload"
  match ← loop (headersPass frame headersEnd) passes (12, []) with
  | .error message => return .error message
  | .ok headers => return .ok ⟨headers, ← part frame headersEnd msgCrcOffset⟩

/-- The frames so far, and the buffer. -/
abbrev Progress : Type := List Frame × List UInt8

/-- A pass of the loop over the buffer. -/
def feedPass (headerPasses : Nat) (progress : Progress) :
    Checked (Progress ⊕ (Except String (List Frame) × FrameDecoder)) := do
  let (out, buf) := progress
  if buf.length < 12 then return .inr (.ok out, ⟨buf⟩)
  let total ← number 4 (← part buf 0 4)
  if total < 16 then return .inr (.error ("frame too short: " ++ toString total ++ " bytes"), ⟨buf⟩)
  if buf.length < total then return .inr (.ok out, ⟨buf⟩)
  let frame ← part buf 0 total
  let left ← part buf total buf.length
  match ← decodeFrame crc32 headerPasses frame with
  | .error message => return .inr (.error message, ⟨left⟩)
  | .ok frame => return .inl (out ++ [frame], left)

def feed (passes headerPasses : Nat) (decoder : FrameDecoder) (bytes : List UInt8) :
    Checked (Except String (List Frame) × FrameDecoder) :=
  loop (feedPass crc32 headerPasses) passes ([], decoder.buf ++ bytes)

end Checked

/-! ### The headers -/

theorem slice_one {bytes : List UInt8} {pos : Nat} (inside : pos < bytes.length) :
    slice bytes pos (pos + 1) = [bytes[pos]] := by
  rw [slice, List.drop_take, Nat.add_sub_cancel_left, List.drop_eq_getElem_cons inside]
  rfl

theorem fromBeBytes_one {bytes : List UInt8} {pos : Nat} (inside : pos < bytes.length) :
    fromBeBytes (slice bytes pos (pos + 1)) = bytes[pos].toNat := by
  rw [slice_one inside, fromBeBytes_eq, BigEndian.decode_singleton]

theorem slice_length {bytes : List UInt8} {start stop : Nat} (inside : stop ≤ bytes.length) :
    (slice bytes start stop).length = stop - start := by
  rw [slice, List.length_drop, List.length_take, Nat.min_eq_left inside]

theorem part_slice {bytes : List UInt8} {start stop : Nat} (le : start ≤ stop) (inside : stop ≤ bytes.length) :
    part bytes start stop = .ok (slice bytes start stop) := part_ok le inside

theorem number_slice {bytes : List UInt8} {start stop width : Nat} (inside : stop ≤ bytes.length)
    (length : stop - start = width) :
    number width (slice bytes start stop) = .ok (fromBeBytes (slice bytes start stop)) :=
  number_ok ((slice_length inside).trans length)

theorem fromBeBytes_slice_lt (bytes : List UInt8) {start stop width : Nat} (length : stop - start = width) :
    fromBeBytes (slice bytes start stop) < 256 ^ width := by
  have bound := BigEndian.decode_lt (slice bytes start stop)
  have short : (slice bytes start stop).length ≤ width := by
    rw [slice, List.length_drop, List.length_take]
    omega
  rw [fromBeBytes_eq]
  exact lt_of_lt_of_le bound (Nat.pow_le_pow_right (by decide) short)

variable {frame : List UInt8} {headersEnd pos : Nat}

/-- The header at a position ahead of the end of the headers is read without a fault, and ends at four bytes from the
    position at least and at the end of the headers at most. -/
theorem decodeHeader_total (inside : headersEnd ≤ frame.length) (small : headersEnd < 2 ^ 33) (going : pos < headersEnd) :
    ∃ read, Checked.decodeHeader frame headersEnd pos = .ok read ∧
      (∀ fuel headers, decodeHeaders frame headersEnd (fuel + 1) pos headers =
        match read with
        | .error message => .error message
        | .ok (header, next) => decodeHeaders frame headersEnd fuel next (header :: headers)) ∧
      ∀ header next, read = .ok (header, next) → pos + 4 ≤ next ∧ next ≤ headersEnd := by
  have here : pos < frame.length := by omega
  have nameLen_lt := frame[pos].toNat_lt
  rw [Checked.decodeHeader, index_ok here, ok_bind, plus_ok (by omega), ok_bind]
  simp only [decodeHeaders, if_pos going, fromBeBytes_one here]
  generalize frame[pos].toNat = nameLen at nameLen_lt ⊢
  simp (disch := omega) only [plus_ok, ok_bind]
  by_cases truncated : pos + 1 + nameLen + 3 > headersEnd
  · simp only [if_pos truncated]
    exact ⟨_, rfl, fun _ _ => rfl, by rintro header next ⟨⟩⟩
  -- The name, the type and the length of the value stand before the end of the headers.
  have typeAt : pos + 1 + nameLen < frame.length := by omega
  simp only [if_neg truncated, fromBeBytes_one typeAt]
  rw [part_slice (by omega) (by omega), ok_bind, index_ok typeAt, ok_bind]
  by_cases unsupported : frame[pos + 1 + nameLen].toNat ≠ 7
  · simp only [if_pos unsupported]
    exact ⟨_, rfl, fun _ _ => rfl, by rintro header next ⟨⟩⟩
  have valueLen_lt : fromBeBytes (slice frame (pos + 1 + nameLen + 1) (pos + 1 + nameLen + 1 + 2)) < 256 ^ 2 :=
    fromBeBytes_slice_lt frame (by omega)
  simp only [if_neg unsupported]
  rw [part_slice (by omega) (by omega), ok_bind, number_slice (by omega) (by omega), ok_bind]
  generalize fromBeBytes (slice frame (pos + 1 + nameLen + 1) (pos + 1 + nameLen + 1 + 2)) = valueLen at valueLen_lt ⊢
  rw [plus_ok (by omega), ok_bind]
  by_cases overrun : pos + 1 + nameLen + 1 + 2 + valueLen > headersEnd
  · simp only [if_pos overrun]
    exact ⟨_, rfl, fun _ _ => rfl, by rintro header next ⟨⟩⟩
  simp only [if_neg overrun, ok_bind]
  rw [part_slice (by omega) (by omega), ok_bind]
  refine ⟨_, rfl, fun _ _ => rfl, ?_⟩
  rintro header next ⟨rfl, rfl⟩
  omega

/-- Passes beyond those that the headers take change nothing. -/
theorem decodeHeaders_enough (inside : headersEnd ≤ frame.length) (small : headersEnd < 2 ^ 33) {fuel more : Nat}
    (enough : headersEnd ≤ pos + fuel) (enoughToo : headersEnd ≤ pos + more) (headers : List (String × String)) :
    decodeHeaders frame headersEnd fuel pos headers = decodeHeaders frame headersEnd more pos headers := by
  induction fuel generalizing more pos headers with
  | zero =>
    have done : ¬ pos < headersEnd := by omega
    cases more with
    | zero => rfl
    | succ more => rw [decodeHeaders, decodeHeaders, if_neg done]
  | succ fuel ih =>
    by_cases going : pos < headersEnd
    · obtain ⟨more, rfl⟩ : ∃ rest, more = rest + 1 := ⟨more - 1, by omega⟩
      obtain ⟨read, -, reads, moves⟩ := decodeHeader_total inside small going
      rw [reads fuel headers, reads more headers]
      cases read with
      | error message => rfl
      | ok header =>
        obtain ⟨header, next⟩ := header
        have moved := (moves header next rfl).1
        exact ih (by omega) (by omega) (header :: headers)
    · cases more with
      | zero => rw [decodeHeaders, decodeHeaders, if_neg going]
      | succ more => rw [decodeHeaders, decodeHeaders, if_neg going, if_neg going]

/-- The loop over the headers is through without a fault: every pass moves the position by four bytes at least. -/
theorem headers_total (inside : headersEnd ≤ frame.length) (small : headersEnd < 2 ^ 33) {passes : Nat}
    (enough : headersEnd - pos < passes * 4) (headers : List (String × String)) :
    loop (Checked.headersPass frame headersEnd) passes (pos, headers) =
      .ok (decodeHeaders frame headersEnd (headersEnd - pos) pos headers) := by
  refine loop_total (Checked.headersPass frame headersEnd) (fun _ => True) (fun cursor => headersEnd - cursor.1)
    (fun cursor => decodeHeaders frame headersEnd (headersEnd - cursor.1) cursor.1 cursor.2) 4 ?_ trivial enough
  rintro ⟨pos, headers⟩ -
  by_cases going : pos < headersEnd
  · obtain ⟨read, checked, reads, moves⟩ := decodeHeader_total inside small going
    simp only [Checked.headersPass, if_pos going, checked, ok_bind]
    obtain ⟨fuel, left⟩ : ∃ fuel, headersEnd - pos = fuel + 1 := ⟨headersEnd - pos - 1, by omega⟩
    rw [left, reads fuel headers]
    cases read with
    | error message => exact Or.inr rfl
    | ok header =>
      obtain ⟨header, next⟩ := header
      obtain ⟨moved, ahead⟩ := moves header next rfl
      refine Or.inl ⟨(next, header :: headers), rfl, trivial, by dsimp only; omega, ?_⟩
      exact decodeHeaders_enough inside small (by omega) (by omega) (header :: headers)
  · have none : headersEnd - pos = 0 := by omega
    refine Or.inr ?_
    simp only [Checked.headersPass, if_neg going, none, decodeHeaders]
    rfl

/-! ### The frames -/

variable (crc32 : List UInt8 → Nat)

/-- A frame of sixteen bytes at least is decoded without a fault. -/
theorem decodeFrame_total (long : 16 ≤ frame.length) {passes : Nat} (enough : frame.length ≤ 4 * passes) :
    Checked.decodeFrame crc32 passes frame = .ok (decodeFrame crc32 frame) := by
  have headersLen_lt : fromBeBytes (slice frame 4 8) < 256 ^ 4 := fromBeBytes_slice_lt frame (by omega)
  rw [Checked.decodeFrame, decodeFrame]
  rw [part_slice (by omega) (by omega), ok_bind, number_slice (by omega) (by omega), ok_bind]
  rw [part_slice (by omega) (by omega), ok_bind, number_slice (by omega) (by omega), ok_bind]
  rw [part_slice (by omega) (by omega), ok_bind]
  by_cases prelude : crc32 (slice frame 0 8) ≠ fromBeBytes (slice frame 8 12)
  · simp only [if_pos prelude]
    rfl
  simp only [if_neg prelude]
  rw [minus_ok (by omega), ok_bind, part_slice (by omega) (by omega), ok_bind, number_slice (by omega) (by omega),
    ok_bind, part_slice (by omega) (by omega), ok_bind]
  by_cases message : crc32 (slice frame 0 (frame.length - 4)) ≠
      fromBeBytes (slice frame (frame.length - 4) frame.length)
  · simp only [if_pos message]
    rfl
  simp only [if_neg message]
  generalize fromBeBytes (slice frame 4 8) = headersLen at headersLen_lt ⊢
  rw [plus_ok (by omega), ok_bind]
  by_cases overrun : 12 + headersLen > frame.length - 4
  · simp only [if_pos overrun]
    rfl
  simp only [if_neg overrun]
  rw [headers_total (by omega) (by omega) (by omega) [], ok_bind]
  have same : decodeHeaders frame (12 + headersLen) (12 + headersLen - 12) 12 [] =
      decodeHeaders frame (12 + headersLen) (12 + headersLen) 12 [] :=
    decodeHeaders_enough (by omega) (by omega) (by omega) (by omega) []
  rw [same]
  cases decodeHeaders frame (12 + headersLen) (12 + headersLen) 12 [] with
  | error message => rfl
  | ok headers =>
    dsimp only
    rw [part_slice (by omega) (by omega)]
    rfl

namespace FrameDecoder

/-- What a buffer makes of the frames so far. -/
def drainAfter (fuel : Nat) (progress : Checked.Progress) : Except String (List Frame) × FrameDecoder :=
  let (frames, left) := drain crc32 fuel progress.2
  (frames.map (progress.1 ++ ·), ⟨left⟩)

/-- A pass over a buffer does not fault. Where it goes on, it has taken sixteen bytes at least from the front. -/
theorem feedPass_total {buf : List UInt8} {headerPasses : Nat} (enough : buf.length ≤ 4 * headerPasses)
    (out : List Frame) :
    ∃ next, Checked.feedPass crc32 headerPasses (out, buf) = .ok next ∧
      (∀ fuel, drainAfter crc32 (fuel + 1) (out, buf) =
        match next with
        | .inl later => drainAfter crc32 fuel later
        | .inr result => result) ∧
      ∀ later, next = .inl later → ∃ total, 16 ≤ total ∧ total ≤ buf.length ∧ later.2 = buf.drop total := by
  simp only [Checked.feedPass, drainAfter, drain]
  by_cases short : buf.length < 12
  · simp only [if_pos short]
    exact ⟨_, rfl, fun _ => by simp [Except.map], by rintro later ⟨⟩⟩
  simp only [if_neg short]
  rw [part_slice (by omega) (by omega), ok_bind, number_slice (by omega) (by omega), ok_bind]
  have front : slice buf 0 4 = buf.take 4 := List.drop_zero
  rw [front]
  generalize fromBeBytes (buf.take 4) = total
  by_cases tiny : total < 16
  · simp only [if_pos tiny]
    exact ⟨_, rfl, fun _ => rfl, by rintro later ⟨⟩⟩
  simp only [if_neg tiny]
  by_cases unfinished : buf.length < total
  · simp only [if_pos unfinished]
    exact ⟨_, rfl, fun _ => by simp [Except.map], by rintro later ⟨⟩⟩
  simp only [if_neg unfinished]
  have taken : slice buf 0 total = buf.take total := List.drop_zero
  have length : (buf.take total).length = total := List.length_take_of_le (by omega)
  have rest : slice buf total buf.length = buf.drop total := by rw [slice, List.take_length]
  rw [part_slice (by omega) (by omega), ok_bind, part_slice (by omega) (by omega), ok_bind, taken, rest,
    decodeFrame_total crc32 (by omega) (by omega), ok_bind]
  cases decodeFrame crc32 (buf.take total) with
  | error message => exact ⟨_, rfl, fun _ => rfl, by rintro later ⟨⟩⟩
  | ok frame =>
    refine ⟨_, rfl, fun fuel => ?_, ?_⟩
    · dsimp only
      generalize drain crc32 fuel (buf.drop total) = drained
      obtain ⟨frames | frames, left⟩ := drained
      · rfl
      · simp [Except.map]
    · rintro later ⟨rfl, rfl⟩
      exact ⟨total, by omega, by omega, rfl⟩

/-- Passes beyond those that a buffer takes change nothing. -/
theorem drain_enough {fuel more : Nat} {buf : List UInt8} (enough : buf.length ≤ fuel) (enoughToo : buf.length ≤ more) :
    drain crc32 fuel buf = drain crc32 more buf := by
  induction fuel generalizing more buf with
  | zero =>
    cases more with
    | zero => rfl
    | succ more => rw [drain, drain, if_pos (by omega)]
  | succ fuel ih =>
    cases more with
    | zero => rw [drain, drain, if_pos (by omega)]
    | succ more =>
      simp only [drain]
      by_cases tiny : fromBeBytes (buf.take 4) < 16
      · simp only [if_pos tiny]
      · have shorter : (buf.drop (fromBeBytes (buf.take 4))).length ≤ buf.length - 16 := by
          rw [List.length_drop]
          omega
        have same : drain crc32 fuel (buf.drop (fromBeBytes (buf.take 4))) =
            drain crc32 more (buf.drop (fromBeBytes (buf.take 4))) := ih (by omega) (by omega)
        rw [same]

theorem drainAfter_enough {fuel more : Nat} {progress : Checked.Progress} (enough : progress.2.length ≤ fuel)
    (enoughToo : progress.2.length ≤ more) : drainAfter crc32 fuel progress = drainAfter crc32 more progress := by
  rw [drainAfter, drainAfter, drain_enough crc32 enough enoughToo]

/-- The loop over a buffer is through without a fault. -/
theorem feed_total (decoder : FrameDecoder) (bytes : List UInt8) {passes headerPasses : Nat}
    (enough : (decoder.buf ++ bytes).length < passes * 16)
    (enoughToo : (decoder.buf ++ bytes).length ≤ 4 * headerPasses) :
    Checked.feed crc32 passes headerPasses decoder bytes = .ok (decoder.feed crc32 bytes) := by
  have through : Checked.feed crc32 passes headerPasses decoder bytes =
      .ok (drainAfter crc32 (decoder.buf ++ bytes).length ([], decoder.buf ++ bytes)) := by
    refine loop_total (Checked.feedPass crc32 headerPasses) (fun progress => progress.2.length ≤ 4 * headerPasses)
      (fun progress => progress.2.length) (fun progress => drainAfter crc32 progress.2.length progress) 16 ?_ enoughToo
      enough
    rintro ⟨out, buf⟩ held
    dsimp only at held
    obtain ⟨next, checked, same, takes⟩ := feedPass_total crc32 held out
    have longer : drainAfter crc32 buf.length (out, buf) = drainAfter crc32 (buf.length + 1) (out, buf) :=
      drainAfter_enough crc32 (by rfl) (by simp)
    rw [longer, same buf.length, checked]
    cases next with
    | inr result => exact Or.inr rfl
    | inl later =>
      obtain ⟨total, long, fits, left⟩ := takes later rfl
      have shorter : later.2.length + 16 ≤ buf.length := by
        rw [left, List.length_drop]
        omega
      have kept : later.2.length ≤ 4 * headerPasses := by omega
      exact Or.inl ⟨later, rfl, kept, shorter, drainAfter_enough crc32 (by rfl) (by omega)⟩
  rw [through]
  simp only [drainAfter, feed]
  cases (drain crc32 (decoder.buf ++ bytes).length (decoder.buf ++ bytes)).1 <;> rfl

/-- For every checksum: a frame of sixteen bytes at least is decoded without a fault and as it is; a pass over a buffer
    does not fault, and takes sixteen bytes at least where it goes on; and bytes are fed without a fault, and the loop
    is through. -/
theorem in_bounds :
    (∀ (frame : List UInt8) (passes : Nat), 16 ≤ frame.length → frame.length ≤ 4 * passes →
      Checked.decodeFrame crc32 passes frame = .ok (decodeFrame crc32 frame)) ∧
    (∀ (out : List Frame) (buf : List UInt8) (headerPasses : Nat), buf.length ≤ 4 * headerPasses →
      ∃ next, Checked.feedPass crc32 headerPasses (out, buf) = .ok next ∧
        ∀ out' left, next = .inl (out', left) → ∃ total, 16 ≤ total ∧ total ≤ buf.length ∧ left = buf.drop total) ∧
    ∀ (decoder : FrameDecoder) (bytes : List UInt8) (passes headerPasses : Nat),
      (decoder.buf ++ bytes).length < passes * 16 → (decoder.buf ++ bytes).length ≤ 4 * headerPasses →
      Checked.feed crc32 passes headerPasses decoder bytes = .ok (decoder.feed crc32 bytes) := by
  refine ⟨fun frame passes long enough => decodeFrame_total crc32 long enough, ?_, ?_⟩
  · intro out buf headerPasses enough
    obtain ⟨next, checked, -, takes⟩ := feedPass_total crc32 enough out
    exact ⟨next, checked, fun out' left goes => takes (out', left) goes⟩
  · intro decoder bytes passes headerPasses enough enoughToo
    exact feed_total crc32 decoder bytes enough enoughToo

/-- The empty frame of sixteen bytes is read in two passes. -/
theorem empty_frame_in_bounds :
    Checked.decodeFrame emptyFrameCrc32 4 emptyFrame = .ok (.ok ⟨[], []⟩) ∧
      Checked.feed emptyFrameCrc32 2 4 new emptyFrame = .ok (.ok [⟨[], []⟩], new) := by
  obtain ⟨decoded, -, fed⟩ := in_bounds emptyFrameCrc32
  have frame : decodeFrame emptyFrameCrc32 emptyFrame = .ok ⟨[], []⟩ := by decide
  have read : new.feed emptyFrameCrc32 emptyFrame = (.ok [⟨[], []⟩], new) := by decide
  exact ⟨(decoded emptyFrame 4 (by decide) (by decide)).trans (congrArg Except.ok frame),
    (fed new emptyFrame 2 4 (by decide) (by decide)).trans (congrArg Except.ok read)⟩

/-- What is shorter than a prelude has no length of its headers. -/
example : Checked.decodeFrame emptyFrameCrc32 4 [0, 0, 0, 16, 0] = .error .outside := rfl

end FrameDecoder

end SmallGateway.EventStream
