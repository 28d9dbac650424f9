import SmallGateway.Text

/-!
The incremental parser of server-sent events (`gateway-core/src/sse.rs`): bytes in, the events of the blocks they
complete out. Only the block that is not terminated yet is held.
-/

namespace SmallGateway

structure SseEvent where
  event : Option String
  data : String
  deriving DecidableEq

structure SseParser where
  buf : List UInt8
  deriving DecidableEq

namespace SseParser

def new : SseParser := ⟨[]⟩

/-- The bytes before the first blank line, and those after it. -/
def takeBlock : List UInt8 → Option (List UInt8 × List UInt8)
  | 10 :: 10 :: rest => some ([], rest)
  | byte :: rest => (takeBlock rest).map fun (block, left) => (byte :: block, left)
  | [] => none

/-- What a line adds to the event and the data lines of its block. -/
def parseLine (held : Option String × List (List Char)) (line : List Char) :
    Option String × List (List Char) :=
  match line.dropPrefix? "data:".toList with
  | some rest => (held.1, held.2 ++ [(rest.dropPrefix? [' ']).getD rest])
  | none =>
    match line.dropPrefix? "event:".toList with
    | some rest => (some (Text.trim (String.ofList rest)), held.2)
    | none => held

/-- The event of a block, nothing when it has neither data nor an event name. -/
def parseBlock (block : List UInt8) : Option SseEvent :=
  let (event, data) := ((Text.fromUtf8Lossy block).toList.splitOn '\n').foldl parseLine (none, [])
  if data.isEmpty && event.isNone then none
  else some ⟨event, String.ofList (['\n'].intercalate data)⟩

/-- The events of the complete blocks of a buffer, and what is left in it. -/
def drain : Nat → List UInt8 → List SseEvent × List UInt8
  | 0, buf => ([], buf)
  | fuel + 1, buf =>
    match takeBlock buf with
    | none => ([], buf)
    | some (block, left) =>
      let (events, left) := drain fuel left
      ((parseBlock block).toList ++ events, left)

/-- Feeds bytes, without their carriage returns. A block takes two bytes at least, so the length of the buffer
    is fuel enough. -/
def feed (parser : SseParser) (bytes : List UInt8) : List SseEvent × SseParser :=
  let buf := parser.buf ++ bytes.filter (· ≠ 13)
  let (events, left) := drain buf.length buf
  (events, ⟨left⟩)

example : (new.feed "event: ping\ndata: one\ndata: two\r\n\r\ndata".toUTF8.toList).1 =
    [⟨some "ping", "one\ntwo"⟩] := by decide +kernel

end SseParser

end SmallGateway
