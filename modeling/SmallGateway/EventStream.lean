import SmallGateway.Text

/-!
The binary framing of an event stream (`gateway-core/src/eventstream.rs`): an incremental decoder that checks
the checksums of a frame before it reads the headers. The checksum is a parameter.
-/

namespace SmallGateway.EventStream

/-- A frame. A header that is set again stands before the one it replaces. -/
structure Frame where
  headers : List (String × String)
  payload : List UInt8
  deriving DecidableEq

structure FrameDecoder where
  buf : List UInt8
  deriving DecidableEq

/-- The value of bytes in big-endian order. -/
def fromBeBytes (bytes : List UInt8) : Nat := bytes.foldl (fun value byte => value * 256 + byte.toNat) 0

def slice (bytes : List UInt8) (start stop : Nat) : List UInt8 := (bytes.take stop).drop start

variable (crc32 : List UInt8 → Nat)

/-- The headers of a frame from a position on. Every pass moves the position by four bytes at least. -/
def decodeHeaders (frame : List UInt8) (headersEnd : Nat) :
    Nat → Nat → List (String × String) → Except String (List (String × String))
  | 0, _, headers => .ok headers
  | fuel + 1, pos, headers =>
    if pos < headersEnd then
      let nameLen := fromBeBytes (slice frame pos (pos + 1))
      let pos := pos + 1
      if pos + nameLen + 3 > headersEnd then .error "truncated header"
      else
        let name := Text.fromUtf8Lossy (slice frame pos (pos + nameLen))
        let pos := pos + nameLen
        let valueType := fromBeBytes (slice frame pos (pos + 1))
        let pos := pos + 1
        if valueType ≠ 7 then .error ("unsupported header value type " ++ toString valueType)
        else
          let valueLen := fromBeBytes (slice frame pos (pos + 2))
          let pos := pos + 2
          if pos + valueLen > headersEnd then .error "truncated header value"
          else
            let value := Text.fromUtf8Lossy (slice frame pos (pos + valueLen))
            decodeHeaders frame headersEnd fuel (pos + valueLen) ((name, value) :: headers)
    else .ok headers

def decodeFrame (frame : List UInt8) : Except String Frame :=
  let headersLen := fromBeBytes (slice frame 4 8)
  let preludeCrc := fromBeBytes (slice frame 8 12)
  if crc32 (slice frame 0 8) ≠ preludeCrc then .error "prelude CRC mismatch"
  else
    let msgCrcOffset := frame.length - 4
    let messageCrc := fromBeBytes (slice frame msgCrcOffset frame.length)
    if crc32 (slice frame 0 msgCrcOffset) ≠ messageCrc then .error "message CRC mismatch"
    else
      let headersEnd := 12 + headersLen
      if headersEnd > msgCrcOffset then .error "headers overrun payload"
      else
        (decodeHeaders frame headersEnd headersEnd 12 []).map fun headers =>
          ⟨headers, slice frame headersEnd msgCrcOffset⟩

namespace FrameDecoder

def new : FrameDecoder := ⟨[]⟩

/-- The frames that are complete in a buffer, and what is left in it. The first bad frame hides the frames
    before it. -/
def drain : Nat → List UInt8 → Except String (List Frame) × List UInt8
  | 0, buf => (.ok [], buf)
  | fuel + 1, buf =>
    if buf.length < 12 then (.ok [], buf)
    else
      let total := fromBeBytes (buf.take 4)
      if total < 16 then (.error ("frame too short: " ++ toString total ++ " bytes"), buf)
      else if buf.length < total then (.ok [], buf)
      else
        match decodeFrame crc32 (buf.take total) with
        | .error message => (.error message, buf.drop total)
        | .ok frame =>
          let (frames, left) := drain fuel (buf.drop total)
          (frames.map (frame :: ·), left)

/-- Feeds bytes. A frame takes sixteen bytes at least, so the length of the buffer is fuel enough. -/
def feed (decoder : FrameDecoder) (bytes : List UInt8) : Except String (List Frame) × FrameDecoder :=
  let buf := decoder.buf ++ bytes
  let (frames, left) := drain crc32 buf.length buf
  (frames, ⟨left⟩)

end FrameDecoder

end SmallGateway.EventStream
