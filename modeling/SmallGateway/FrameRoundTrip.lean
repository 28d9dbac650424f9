import Mathlib.Data.String.Basic
import SmallGateway.ChunkInvariance
import SmallGateway.Lib.BigEndian
import SmallGateway.Lib.Fallible
import SmallGateway.Lib.Sorting
import SmallGateway.Utf8Bytes

/-!
Writing event-stream frames and reading them back (`encode_frame` and `FrameDecoder` in `gateway-core/src/eventstream.rs`).
The lengths are written in one, two and four bytes, so a name fits that has at most 255 bytes, a value that has at most
65535, and a frame of less than 2^32. The frames that fit come back as they were, in order, from the bytes of all of them
however these are cut into chunks (`frames_round_trip`). The checksum is any function of the bytes.
-/

namespace SmallGateway.EventStream

variable (crc32 : List UInt8 → UInt32)

def encodeHeader (header : String × String) : List UInt8 :=
  let name := Text.utf8Bytes header.1
  let value := Text.utf8Bytes header.2
  .ofNat name.length :: (name ++ 7 :: (BigEndian.encode 2 value.length ++ value))

def headerBytes (headers : List (String × String)) : List UInt8 := headers.flatMap encodeHeader

/-- The length of a frame. -/
def frameLength (headers : List (String × String)) (payload : List UInt8) : Nat :=
  12 + (headerBytes headers).length + payload.length + 4

/-- The two lengths that a frame starts with. -/
def prelude (headers : List (String × String)) (payload : List UInt8) : List UInt8 :=
  BigEndian.encode 4 (frameLength headers payload) ++ BigEndian.encode 4 (headerBytes headers).length

/-- A frame up to the checksum at its end. -/
def beforeChecksum (headers : List (String × String)) (payload : List UInt8) : List UInt8 :=
  prelude headers payload ++
    (BigEndian.encode 4 (crc32 (prelude headers payload)).toNat ++ (headerBytes headers ++ payload))

def encodeFrame (headers : List (String × String)) (payload : List UInt8) : List UInt8 :=
  beforeChecksum crc32 headers payload ++ BigEndian.encode 4 (crc32 (beforeChecksum crc32 headers payload)).toNat

/-- The checksum as the number that the decoder compares. -/
def checksum (bytes : List UInt8) : Nat := (crc32 bytes).toNat

/-- The header fits its length fields. -/
structure HeaderFits (header : String × String) : Prop where
  name : (Text.utf8Bytes header.1).length ≤ 255
  value : (Text.utf8Bytes header.2).length ≤ 65535

/-- The frame fits its length fields, and no header is set twice. -/
structure Frame.Fits (frame : Frame) : Prop where
  distinct : (frame.headers.map (·.1)).Nodup
  headers : ∀ header ∈ frame.headers, HeaderFits header
  length : frameLength frame.headers frame.payload < 2 ^ 32

/-- Two frames have the same headers, as a map of names to values, and the same payload. -/
def Frame.Same (frame other : Frame) : Prop :=
  (∀ name, frame.headers.lookup name = other.headers.lookup name) ∧ frame.payload = other.payload

namespace FrameDecoder

/-- The number of bytes that await the rest of their frame. -/
def pendingBytes (decoder : FrameDecoder) : Nat := decoder.buf.length

/-- The frames that some chunks complete, one chunk after the other, up to the first error. -/
def feedChunks (crc32 : List UInt8 → Nat) (decoder : FrameDecoder) :
    List (List UInt8) → Except String (List Frame) × FrameDecoder
  | [] => (.ok [], decoder)
  | chunk :: rest =>
    match decoder.feed crc32 chunk with
    | (.error message, decoder) => (.error message, decoder)
    | (.ok frames, decoder) =>
      let (more, decoder) := feedChunks crc32 decoder rest
      (more.map (frames ++ ·), decoder)

end FrameDecoder

variable {headers : List (String × String)} {payload : List UInt8}

/-! ### Reading at a position -/

theorem fromBeBytes_eq (bytes : List UInt8) : fromBeBytes bytes = BigEndian.decode bytes := rfl

/-- The part that stands at a position, and what stands after it. -/
theorem slice_part {bytes part after : List UInt8} {pos : Nat} (there : bytes.drop pos = part ++ after) :
    slice bytes pos (pos + part.length) = part ∧ bytes.drop (pos + part.length) = after := by
  constructor
  · rw [slice, List.drop_take, there, Nat.add_sub_cancel_left, List.take_left]
  · rw [← List.drop_drop, there, List.drop_left]

theorem encodeHeader_length (name value : String) : (encodeHeader (name, value)).length =
    4 + (Text.utf8Bytes name).length + (Text.utf8Bytes value).length := by
  simp only [encodeHeader, List.length_cons, List.length_append, BigEndian.encode_length]
  omega

/-- One pass over a header at a position. Of the value it takes as many bytes as the two bytes of its length say. -/
theorem decodeHeaders_pass {bytes after : List UInt8} {name value : String} (short : (Text.utf8Bytes name).length ≤ 255)
    {pos stop : Nat} (there : bytes.drop pos = encodeHeader (name, value) ++ after) {taken : Nat}
    (cut : taken = (Text.utf8Bytes value).length % 65536) (inside : pos + (4 + (Text.utf8Bytes name).length + taken) ≤ stop)
    (fuel : Nat) (read : List (String × String)) :
    decodeHeaders bytes stop (fuel + 1) pos read =
      decodeHeaders bytes stop fuel (pos + (4 + (Text.utf8Bytes name).length + taken))
        ((name, Text.fromUtf8Lossy ((Text.utf8Bytes value).take taken)) :: read) := by
  have nameLen : (UInt8.ofNat (Text.utf8Bytes name).length).toNat = (Text.utf8Bytes name).length :=
    UInt8.toNat_ofNat_of_lt' (show (Text.utf8Bytes name).length < 256 by omega)
  have valueLen : BigEndian.decode (BigEndian.encode 2 (Text.utf8Bytes value).length) = taken :=
    (BigEndian.decode_encode_mod 2 _).trans cut.symm
  have length : ((Text.utf8Bytes value).take taken).length = taken := by
    rw [List.length_take]
    omega
  -- The five parts of the header, each at its position.
  have parts : bytes.drop pos = [.ofNat (Text.utf8Bytes name).length] ++ (Text.utf8Bytes name ++
      ([7] ++ (BigEndian.encode 2 (Text.utf8Bytes value).length ++ ((Text.utf8Bytes value).take taken ++
        ((Text.utf8Bytes value).drop taken ++ after))))) := by
    rw [← List.append_assoc ((Text.utf8Bytes value).take taken), List.take_append_drop]
    simp [there, encodeHeader]
  obtain ⟨first, parts⟩ := slice_part parts
  obtain ⟨second, parts⟩ := slice_part parts
  obtain ⟨third, parts⟩ := slice_part parts
  obtain ⟨fourth, parts⟩ := slice_part parts
  obtain ⟨fifth, -⟩ := slice_part parts
  simp only [List.length_singleton, BigEndian.encode_length, length] at first second third fourth fifth
  have positions : pos + 1 + (Text.utf8Bytes name).length + 1 + 2 + taken =
      pos + (4 + (Text.utf8Bytes name).length + taken) := by omega
  rw [decodeHeaders, if_pos (by omega)]
  simp only [fromBeBytes_eq, first, BigEndian.decode_singleton, nameLen, second, third, fourth, valueLen, fifth,
    Text.fromUtf8Lossy_utf8Bytes]
  rw [if_neg (by omega), if_neg (by decide), if_neg (by omega), positions]

/-- What a pass over a header leaves. -/
theorem drop_pass {bytes after : List UInt8} {name value : String} {pos taken : Nat}
    (there : bytes.drop pos = encodeHeader (name, value) ++ after) (within : taken ≤ (Text.utf8Bytes value).length) :
    bytes.drop (pos + (4 + (Text.utf8Bytes name).length + taken)) = (Text.utf8Bytes value).drop taken ++ after := by
  have parts : bytes.drop pos = (.ofNat (Text.utf8Bytes name).length :: (Text.utf8Bytes name ++
      7 :: (BigEndian.encode 2 (Text.utf8Bytes value).length ++ (Text.utf8Bytes value).take taken))) ++
        ((Text.utf8Bytes value).drop taken ++ after) := by
    rw [there, encodeHeader]
    simp only [List.cons_append, List.append_assoc]
    rw [← List.append_assoc ((Text.utf8Bytes value).take taken), List.take_append_drop]
  have rest := (slice_part parts).2
  simp only [List.length_cons, List.length_append, BigEndian.encode_length, List.length_take] at rest
  rw [← rest]
  exact congrArg (fun n => bytes.drop n) (by omega)

/-- The header at a position is read, and the headers after it are left. -/
theorem decodeHeaders_header {bytes after : List UInt8} {header : String × String} (fits : HeaderFits header)
    {pos stop : Nat} (there : bytes.drop pos = encodeHeader header ++ after)
    (inside : pos + (encodeHeader header).length ≤ stop) (fuel : Nat) (read : List (String × String)) :
    decodeHeaders bytes stop (fuel + 1) pos read =
      decodeHeaders bytes stop fuel (pos + (encodeHeader header).length) (header :: read) := by
  obtain ⟨name, value⟩ := header
  obtain ⟨shortName, shortValue⟩ := fits
  dsimp only at shortName shortValue
  rw [encodeHeader_length] at inside ⊢
  rw [decodeHeaders_pass shortName there (Nat.mod_eq_of_lt (by omega)).symm inside, List.take_length,
    Text.fromUtf8Lossy_utf8Bytes]

/-- The headers at a position are read, the last one first. -/
theorem decodeHeaders_encode {bytes after : List UInt8} (fits : ∀ header ∈ headers, HeaderFits header) {pos fuel : Nat}
    (there : bytes.drop pos = headerBytes headers ++ after) (enough : headers.length ≤ fuel)
    (read : List (String × String)) :
    decodeHeaders bytes (pos + (headerBytes headers).length) fuel pos read = .ok (headers.reverse ++ read) := by
  induction headers generalizing pos fuel read with
  | nil =>
    cases fuel with
    | zero => rfl
    | succ fuel => rw [decodeHeaders, if_neg (by simp [headerBytes])]; rfl
  | cons header rest ih =>
    obtain ⟨here, later⟩ := List.forall_mem_cons.mp fits
    obtain ⟨fuel, rfl⟩ : ∃ n, fuel = n + 1 := ⟨fuel - 1, by simp only [List.length_cons] at enough; omega⟩
    have first : headerBytes (header :: rest) = encodeHeader header ++ headerBytes rest := List.flatMap_cons
    rw [first, List.append_assoc] at there
    have stop : pos + (headerBytes (header :: rest)).length =
        pos + (encodeHeader header).length + (headerBytes rest).length := by
      rw [first, List.length_append, Nat.add_assoc]
    rw [stop, decodeHeaders_header here there (by omega),
      ih later (slice_part there).2 (by simpa using enough) (header :: read)]
    simp

/-! ### Reading a frame -/

variable (headers payload)

theorem prelude_length : (prelude headers payload).length = 8 := by
  simp [prelude]

theorem beforeChecksum_length :
    (beforeChecksum crc32 headers payload).length = 12 + (headerBytes headers).length + payload.length := by
  simp only [beforeChecksum, List.length_append, prelude_length, BigEndian.encode_length]
  omega

theorem encodeFrame_length : (encodeFrame crc32 headers payload).length = frameLength headers payload := by
  rw [encodeFrame, List.length_append, beforeChecksum_length, BigEndian.encode_length, frameLength]

theorem fromBeBytes_checksum (bytes : List UInt8) :
    fromBeBytes (BigEndian.encode 4 (crc32 bytes).toNat) = checksum crc32 bytes :=
  BigEndian.decode_encode (show (crc32 bytes).toNat < 2 ^ 32 from (crc32 bytes).toNat_lt)

/-- The parts of a frame, each at its position. -/
theorem encodeFrame_parts :
    let frame := encodeFrame crc32 headers payload
    let stop := 12 + (headerBytes headers).length
    slice frame 0 8 = prelude headers payload ∧
      slice frame 4 8 = BigEndian.encode 4 (headerBytes headers).length ∧
      slice frame 8 12 = BigEndian.encode 4 (crc32 (prelude headers payload)).toNat ∧
      (∃ after, frame.drop 12 = headerBytes headers ++ after) ∧
      slice frame stop (stop + payload.length) = payload ∧
      slice frame 0 (stop + payload.length) = beforeChecksum crc32 headers payload ∧
      slice frame (stop + payload.length) (stop + payload.length + 4) =
        BigEndian.encode 4 (crc32 (beforeChecksum crc32 headers payload)).toNat := by
  intro frame stop
  have checked : frame.drop 0 = beforeChecksum crc32 headers payload ++
      (BigEndian.encode 4 (crc32 (beforeChecksum crc32 headers payload)).toNat ++ []) := by
    rw [List.append_nil]
    rfl
  have parts : frame.drop 0 = prelude headers payload ++ (BigEndian.encode 4 (crc32 (prelude headers payload)).toNat ++
      (headerBytes headers ++
        (payload ++ BigEndian.encode 4 (crc32 (beforeChecksum crc32 headers payload)).toNat))) := by
    simp [frame, encodeFrame, beforeChecksum]
  have lengths : frame.drop 0 = BigEndian.encode 4 (frameLength headers payload) ++
      (BigEndian.encode 4 (headerBytes headers).length ++ (BigEndian.encode 4 (crc32 (prelude headers payload)).toNat ++
        (headerBytes headers ++
          (payload ++ BigEndian.encode 4 (crc32 (beforeChecksum crc32 headers payload)).toNat)))) := by
    simp [parts, prelude]
  obtain ⟨upTo, last⟩ := slice_part checked
  obtain ⟨crc, -⟩ := slice_part last
  obtain ⟨first, rest⟩ := slice_part parts
  obtain ⟨preludeCrc, rest⟩ := slice_part rest
  obtain ⟨-, body⟩ := slice_part rest
  obtain ⟨held, -⟩ := slice_part body
  obtain ⟨headersLen, -⟩ := slice_part (slice_part lengths).2
  simp only [prelude_length, beforeChecksum_length, BigEndian.encode_length, Nat.zero_add, Nat.reduceAdd] at *
  exact ⟨first, headersLen, preludeCrc, ⟨_, rest⟩, held, upTo, crc⟩

theorem headers_length_le (headers : List (String × String)) : headers.length ≤ (headerBytes headers).length := by
  induction headers with
  | nil => exact Nat.le_refl 0
  | cons header rest ih =>
    have first : headerBytes (header :: rest) = encodeHeader header ++ headerBytes rest := List.flatMap_cons
    rw [first, List.length_append, encodeHeader, List.length_cons, List.length_cons]
    omega

variable {crc32 headers payload}

/-- A frame that fits decodes to its headers and its payload. -/
theorem decodeFrame_encode (fits : ∀ header ∈ headers, HeaderFits header) (length : frameLength headers payload < 2 ^ 32) :
    decodeFrame (checksum crc32) (encodeFrame crc32 headers payload) = .ok ⟨headers.reverse, payload⟩ := by
  obtain ⟨first, headersLen, preludeCrc, ⟨after, body⟩, held, upTo, crc⟩ :=
    encodeFrame_parts crc32 headers payload
  have offset : (encodeFrame crc32 headers payload).length - 4 = 12 + (headerBytes headers).length + payload.length := by
    rw [encodeFrame_length, frameLength]
    omega
  have size : (encodeFrame crc32 headers payload).length = 12 + (headerBytes headers).length + payload.length + 4 :=
    encodeFrame_length crc32 headers payload
  have headersFit : fromBeBytes (BigEndian.encode 4 (headerBytes headers).length) = (headerBytes headers).length :=
    BigEndian.decode_encode (show (headerBytes headers).length < 2 ^ 32 by unfold frameLength at length; omega)
  have enough := headers_length_le headers
  rw [decodeFrame, offset, size]
  simp only [first, headersLen, preludeCrc, upTo, crc, fromBeBytes_checksum, headersFit, held, ne_eq, not_true_eq_false,
    if_false]
  rw [if_neg (by omega), decodeHeaders_encode fits body (by omega), List.append_nil]
  rfl

/-! ### What reading can find -/

theorem slice_append {bytes : List UInt8} {first second third : Nat} (le : first ≤ second) (leToo : second ≤ third) :
    slice bytes first second ++ slice bytes second third = slice bytes first third := by
  have rest : bytes.drop second = (bytes.drop first).drop (second - first) := by
    rw [List.drop_drop, Nat.add_sub_cancel' le]
  have size : third - first = (second - first) + (third - second) := by omega
  rw [slice, slice, slice, List.drop_take, List.drop_take, List.drop_take, rest, size, List.take_add]

theorem count_slice (bytes : List UInt8) (byte : UInt8) {first second third : Nat} (le : first ≤ second)
    (leToo : second ≤ third) : (slice bytes first third).count byte =
      (slice bytes first second).count byte + (slice bytes second third).count byte := by
  rw [← slice_append le leToo, List.count_append]

/-- A header that is read from a position on holds a character of ASCII at most as often as its byte stands there. -/
theorem decodeHeaders_count (c : Char) (ascii : c.toNat < 0x80) {bytes : List UInt8} {stop fuel pos : Nat}
    {read headers : List (String × String)} (decoded : decodeHeaders bytes stop fuel pos read = .ok headers) :
    ∃ more, headers = more ++ read ∧ ∀ header ∈ more,
      header.1.toList.count c + header.2.toList.count c ≤ (slice bytes pos stop).count (.ofNat c.toNat) := by
  induction fuel generalizing pos read with
  | zero =>
    obtain rfl := Except.ok.inj decoded
    exact ⟨[], rfl, nofun⟩
  | succ fuel ih =>
    rw [decodeHeaders] at decoded
    split at decoded
    · dsimp only at decoded
      split at decoded
      · cases decoded
      · split at decoded
        · cases decoded
        · split at decoded
          · cases decoded
          · rename_i valueFits
            obtain ⟨more, rfl, bounded⟩ := ih decoded
            refine ⟨more ++ [_], by rw [List.append_assoc]; rfl, fun header listed => ?_⟩
            generalize fromBeBytes (slice bytes pos (pos + 1)) = nameLen at *
            generalize fromBeBytes (slice bytes (pos + 1 + nameLen + 1) (pos + 1 + nameLen + 1 + 2)) = valueLen at *
            -- The length, the name, the type with the length of the value, and the value stand one after the other.
            have first := count_slice bytes (.ofNat c.toNat) (by omega : pos ≤ pos + 1) (by omega : pos + 1 ≤ stop)
            have second := count_slice bytes (.ofNat c.toNat) (by omega : pos + 1 ≤ pos + 1 + nameLen)
              (by omega : pos + 1 + nameLen ≤ stop)
            have third := count_slice bytes (.ofNat c.toNat) (by omega : pos + 1 + nameLen ≤ pos + 1 + nameLen + 1 + 2)
              (by omega : pos + 1 + nameLen + 1 + 2 ≤ stop)
            have fourth := count_slice bytes (.ofNat c.toNat)
              (by omega : pos + 1 + nameLen + 1 + 2 ≤ pos + 1 + nameLen + 1 + 2 + valueLen)
              (by omega : pos + 1 + nameLen + 1 + 2 + valueLen ≤ stop)
            rcases List.mem_append.mp listed with later | here
            · have := bounded header later
              omega
            · rw [List.mem_singleton] at here
              subst here
              rw [Text.count_fromUtf8Lossy ascii, Text.count_fromUtf8Lossy ascii]
              omega
    · obtain rfl := Except.ok.inj decoded
      exact ⟨[], rfl, nofun⟩

/-- A frame that decodes at all has its payload, and the headers that are read from its header bytes. -/
theorem decodeFrame_eq_ok {frame : Frame} (short : (headerBytes headers).length < 2 ^ 32)
    (decoded : decodeFrame (checksum crc32) (encodeFrame crc32 headers payload) = .ok frame) :
    frame.payload = payload ∧
      decodeHeaders (encodeFrame crc32 headers payload) (12 + (headerBytes headers).length)
        (12 + (headerBytes headers).length) 12 [] = .ok frame.headers := by
  obtain ⟨first, headersLen, preludeCrc, -, held, upTo, crc⟩ := encodeFrame_parts crc32 headers payload
  have offset : (encodeFrame crc32 headers payload).length - 4 = 12 + (headerBytes headers).length + payload.length := by
    rw [encodeFrame_length, frameLength]
    omega
  have size : (encodeFrame crc32 headers payload).length = 12 + (headerBytes headers).length + payload.length + 4 :=
    encodeFrame_length crc32 headers payload
  have headersFit : fromBeBytes (BigEndian.encode 4 (headerBytes headers).length) = (headerBytes headers).length :=
    BigEndian.decode_encode short
  rw [decodeFrame, offset, size] at decoded
  simp only [first, headersLen, preludeCrc, upTo, crc, fromBeBytes_checksum, headersFit, held, ne_eq, not_true_eq_false,
    if_false] at decoded
  rw [if_neg (by omega)] at decoded
  obtain ⟨read, reads, rfl⟩ := Fallible.map_ok.mp decoded
  exact ⟨rfl, reads⟩

namespace FrameDecoder

/-- A buffer that is drained of no frame is left as it is. -/
theorem drain_ok_nil {crc32 : List UInt8 → Nat} {fuel : Nat} {buf left : List UInt8}
    (drained : drain crc32 fuel buf = (.ok [], left)) : left = buf := by
  cases fuel with
  | zero => exact (Prod.mk.inj drained).2.symm
  | succ fuel =>
    rw [drain] at drained
    split at drained
    · exact (Prod.mk.inj drained).2.symm
    · dsimp only at drained
      split at drained
      · cases drained
      · split at drained
        · exact (Prod.mk.inj drained).2.symm
        · split at drained
          · cases drained
          · obtain ⟨frames, -⟩ := Prod.mk.inj drained
            obtain ⟨rest, -, listed⟩ := Fallible.map_ok.mp frames
            cases listed

/-- Bytes that are read as one frame, with nothing pending, are one frame. -/
theorem feed_one {crc32 : List UInt8 → Nat} {bytes : List UInt8} {frame : Frame}
    (read : new.feed crc32 bytes = (.ok [frame], ⟨[]⟩)) :
    fromBeBytes (bytes.take 4) = bytes.length ∧ decodeFrame crc32 bytes = .ok frame := by
  have drained : drain crc32 bytes.length bytes = (.ok [frame], []) := by
    obtain ⟨frames, left⟩ := Prod.mk.inj read
    exact Prod.ext frames (FrameDecoder.mk.inj left)
  cases size : bytes.length with
  | zero =>
    rw [size] at drained
    cases drained
  | succ fuel =>
    rw [size, drain] at drained
    split at drained
    · cases drained
    · dsimp only at drained
      split at drained
      · cases drained
      · split at drained
        · cases drained
        · split at drained
          · cases drained
          · rename_i long complete first decoded
            obtain ⟨frames, left⟩ := Prod.mk.inj drained
            obtain ⟨rest, others, listed⟩ := Fallible.map_ok.mp frames
            obtain ⟨rfl, rfl⟩ := List.cons.inj listed
            have nothing := drain_ok_nil (Prod.ext others left)
            have whole : bytes.length ≤ fromBeBytes (bytes.take 4) := List.drop_eq_nil_iff.mp nothing.symm
            rw [List.take_of_length_le whole] at decoded
            exact ⟨by omega, decoded⟩

end FrameDecoder

/-! ### Reading many frames -/

/-- A frame that fits is taken from the front of what follows. -/
theorem takeFrame_encode (fits : ∀ header ∈ headers, HeaderFits header) (length : frameLength headers payload < 2 ^ 32)
    (more : List UInt8) :
    takeFrame (checksum crc32) (encodeFrame crc32 headers payload ++ more) =
      some (.ok ⟨headers.reverse, payload⟩, more) := by
  have size := encodeFrame_length crc32 headers payload
  have starts : (encodeFrame crc32 headers payload ++ more).take 4 = BigEndian.encode 4 (frameLength headers payload) := by
    simp [encodeFrame, beforeChecksum, prelude]
  have total : fromBeBytes ((encodeFrame crc32 headers payload ++ more).take 4) = frameLength headers payload := by
    rw [starts]
    exact BigEndian.decode_encode length
  have least : 16 ≤ frameLength headers payload := by unfold frameLength; omega
  refine takeFrame_eq_some.mpr ⟨?_, .inr ?_⟩
  · rw [List.length_append]
    omega
  · rw [total, ← size, List.take_left, List.drop_left, decodeFrame_encode fits length]
    refine ⟨size ▸ least, ?_, rfl, rfl⟩
    rw [List.length_append]
    omega

/-- The frame that an encoded frame is read as. -/
def Frame.readBack (frame : Frame) : Frame := ⟨frame.headers.reverse, frame.payload⟩

variable {frames : List Frame}

theorem drain_encode (fits : ∀ frame ∈ frames, frame.Fits) :
    (EventStream.frames (checksum crc32)).drain (frames.flatMap fun frame => encodeFrame crc32 frame.headers frame.payload) =
      (frames.map fun frame => .ok frame.readBack, []) := by
  induction frames with
  | nil => rfl
  | cons frame rest ih =>
    obtain ⟨here, later⟩ := List.forall_mem_cons.mp fits
    have taken (more : List UInt8) : (EventStream.frames (checksum crc32)).take
        (encodeFrame crc32 frame.headers frame.payload ++ more) = some (.ok frame.readBack, more) := by
      rw [frames_take]
      exact takeFrame_encode here.headers here.length more
    rw [List.flatMap_cons, Framing.Reader.drain_some (taken _), ih later, List.map_cons]

theorem sound_ok (frames : List Frame) :
    Framing.sound (frames.map fun frame => (.ok frame.readBack : Except String Frame)) =
      (frames.map Frame.readBack, none) := by
  induction frames with
  | nil => rfl
  | cons frame rest ih => rw [List.map_cons, Framing.sound, ih]; rfl

/-- The chunks of a stream without a malformed frame complete its frames, and leave what the stream leaves. -/
theorem feedChunks_sound {crc32 : List UInt8 → Nat} {held : List UInt8}
    (incomplete : (EventStream.frames crc32).take held = none) {chunks : List (List UInt8)}
    (well : (read crc32 (held ++ chunks.flatten)).2 = none) :
    FrameDecoder.feedChunks crc32 ⟨held⟩ chunks =
      (.ok (read crc32 (held ++ chunks.flatten)).1,
        ⟨((EventStream.frames crc32).drain (held ++ chunks.flatten)).2⟩) := by
  induction chunks generalizing held with
  | nil =>
    rw [List.flatten_nil, List.append_nil, read, Framing.Reader.drain_none incomplete]
    rfl
  | cons chunk rest ih =>
    rw [List.flatten_cons, ← List.append_assoc] at well ⊢
    have first : (read crc32 (held ++ chunk)).2 = none := by
      cases found : (read crc32 (held ++ chunk)).2 with
      | none => rfl
      | some message => rw [read_append_malformed found, found] at well; cases well
    rw [read_append first] at well ⊢
    have later := ih ((EventStream.frames crc32).take_drain (held ++ chunk)) well
    have fed : FrameDecoder.feed crc32 ⟨held⟩ chunk = _ := feed_sound first
    simp only [FrameDecoder.feedChunks, fed]
    change (match FrameDecoder.feedChunks crc32 ⟨((EventStream.frames crc32).drain (held ++ chunk)).2⟩ rest with
      | (more, decoder) => (more.map ((read crc32 (held ++ chunk)).1 ++ ·), decoder)) = _
    rw [later, Framing.Reader.drain_append (held ++ chunk)]
    rfl

/-- Where no header is set twice, the order of the headers does not matter. -/
theorem Frame.same_readBack {frame : Frame} (distinct : (frame.headers.map (·.1)).Nodup) : frame.Same frame.readBack := by
  refine ⟨fun name => ?_, rfl⟩
  have agree : Sorting.withKey (fun header : String × String => id header.1) (id name) frame.headers =
      Sorting.withKey (fun header => id header.1) (id name) frame.headers.reverse :=
    Sorting.withKey_eq_of_perm distinct (List.reverse_perm _).symm _
  rw [← Sorting.lookup_withKey id, agree, Sorting.lookup_withKey]
  rfl

/-- The frames that fit come back from their bytes, in order, however the bytes are cut, and no byte is left over. -/
theorem frames_round_trip (crc32 : List UInt8 → UInt32) (frames : List Frame) (fits : ∀ frame ∈ frames, frame.Fits)
    (chunks : List (List UInt8))
    (cut : chunks.flatten = frames.flatMap fun frame => encodeFrame crc32 frame.headers frame.payload) :
    ∃ read decoder, FrameDecoder.new.feedChunks (checksum crc32) chunks = (.ok read, decoder) ∧
      List.Forall₂ Frame.Same frames read ∧ decoder.pendingBytes = 0 := by
  have drained : (EventStream.frames (checksum crc32)).drain _ = _ := drain_encode fits
  have bytes : [] ++ chunks.flatten = frames.flatMap fun frame => encodeFrame crc32 frame.headers frame.payload := cut
  have reads : read (checksum crc32) ([] ++ chunks.flatten) = (frames.map Frame.readBack, none) := by
    rw [bytes, read, drained, sound_ok]
  have nothing : (EventStream.frames (checksum crc32)).take [] = none := rfl
  refine ⟨_, _, feedChunks_sound nothing (by rw [reads]), ?_, ?_⟩
  · rw [reads, List.forall₂_map_right_iff, List.forall₂_same]
    exact fun frame listed => frame.same_readBack (fits frame listed).distinct
  · rw [bytes, drained]
    rfl

/-- A checksum that adds up the bytes. -/
def byteSum (bytes : List UInt8) : UInt32 := .ofNat (bytes.map (·.toNat)).sum

/-- An event with a word outside of ASCII, and one without headers or payload. -/
def sentFrames : List Frame :=
  [⟨[(":event-type", "chunk"), (":message-type", "événement")], [1, 2, 3]⟩, ⟨[], []⟩]

theorem sent_frames_read :
    let bytes := sentFrames.flatMap fun frame => encodeFrame byteSum frame.headers frame.payload
    ∃ read decoder, FrameDecoder.new.feedChunks (checksum byteSum) [bytes.take 5, (bytes.drop 5).take 40, bytes.drop 45] =
        (.ok read, decoder) ∧ List.Forall₂ Frame.Same sentFrames read ∧ decoder.pendingBytes = 0 := by
  refine frames_round_trip byteSum sentFrames ?_ _ (by decide)
  intro frame listed
  simp only [sentFrames, List.mem_cons, List.not_mem_nil, or_false] at listed
  rcases listed with rfl | rfl
  · refine ⟨by decide, ?_, by decide⟩
    intro header inside
    simp only [List.mem_cons, List.not_mem_nil, or_false] at inside
    rcases inside with rfl | rfl
    · exact ⟨by decide, by decide⟩
    · exact ⟨by decide, by decide⟩
  · exact ⟨by decide, nofun, by decide⟩

end SmallGateway.EventStream
