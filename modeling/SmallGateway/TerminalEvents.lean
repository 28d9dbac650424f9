import SmallGateway.FrameRoundTrip
import SmallGateway.Lib.Records
import SmallGateway.Validate

/-!
The event that ends a stream that is cut (`render_terminal_event` and `render_terminal_frame_bedrock` in
`gateway-core/src/template.rs`, `render_cut_event` in `gatewayd/src/proxy_support.rs`). It is written in the framing of the
dialect: a block of server-sent events, or one event-stream frame on Bedrock. The parser of the dialect reads it back as
the one event with the operator's name and the rendered data exactly when the texts fit the framing
(`cut_event_read_iff`): a block has no carriage return, its event name is one trimmed line; a frame has a name of at most
65535 bytes and a length of less than 2^32.
-/

namespace SmallGateway

open Config (StreamingRejection)

/-! ### The events -/

namespace Template

def renderTerminalEvent (streaming : StreamingRejection) (vars : List (String × String)) : String :=
  let data := render streaming.data vars
  let out := match streaming.event with
    | some event => "event: " ++ event ++ "\n"
    | none => ""
  (data.toList.splitOn '\n').foldl (fun out line => out ++ ("data: " ++ String.ofList line ++ "\n")) out ++ "\n"

/-- The headers of the frame. -/
def terminalHeaders (streaming : StreamingRejection) : List (String × String) :=
  [(":message-type", "exception"), (":exception-type", streaming.event.getD "stream_cut"),
    (":content-type", "application/json")]

def renderTerminalFrameBedrock (crc32 : List UInt8 → UInt32) (streaming : StreamingRejection)
    (vars : List (String × String)) : List UInt8 :=
  EventStream.encodeFrame crc32 (terminalHeaders streaming) (Text.utf8Bytes (render streaming.data vars))

end Template

/-- A stream that is cut: the operator's block or none, the dialect, and what is said of the cap. -/
structure Cut where
  streaming : Option StreamingRejection
  kind : ProviderKind
  id : CapId
  cap : Nat
  spent : Nat
  route : String

namespace Cut

/-- How the capped spender is written. -/
def key (cut : Cut) : String := cut.id.key ++ "=" ++ cut.id.value

def vars (cut : Cut) : List (String × String) :=
  [("key", cut.key), ("route", cut.route), ("cap", Nat.repr cut.cap), ("spend", Nat.repr cut.spent)]

/-- The operator's block, or the default one. -/
def block (cut : Cut) : StreamingRejection :=
  cut.streaming.getD ⟨none, "\x7b\"error\":\"budget exhausted for " ++ cut.key ++ "\",\"cap\":" ++ Nat.repr cut.cap ++
    ",\"spend\":" ++ Nat.repr cut.spent ++ "\x7d"⟩

def renderCutEvent (crc32 : List UInt8 → UInt32) (cut : Cut) : List UInt8 :=
  match cut.kind with
  | .bedrock => Template.renderTerminalFrameBedrock crc32 cut.block cut.vars
  | _ => Text.utf8Bytes (Template.renderTerminalEvent cut.block cut.vars)

/-- The data of the block with its placeholders filled in. -/
def data (cut : Cut) : String := Template.render cut.block.data cut.vars

/-- The parser of the dialect reads one event, with the name and the data, and nothing is pending. -/
def SpeaksDialect (crc32 : List UInt8 → UInt32) (cut : Cut) : Prop :=
  match cut.kind with
  | .bedrock => ∃ frame,
      EventStream.FrameDecoder.new.feed (EventStream.checksum crc32) (cut.renderCutEvent crc32) = (.ok [frame], ⟨[]⟩) ∧
        frame.headers.lookup ":message-type" = some "exception" ∧
        frame.headers.lookup ":exception-type" = some (cut.block.event.getD "stream_cut") ∧
        frame.payload = Text.utf8Bytes cut.data
  | _ => SseParser.new.feed (cut.renderCutEvent crc32) = ([⟨cut.block.event, cut.data⟩], ⟨[]⟩)

/-- The texts of the block fit the framing of the dialect. -/
def Fits (cut : Cut) : Prop :=
  match cut.kind with
  | .bedrock =>
    (Text.utf8Bytes (cut.block.event.getD "stream_cut")).length ≤ 65535 ∧
      EventStream.frameLength (Template.terminalHeaders cut.block) (Text.utf8Bytes cut.data) < 2 ^ 32
  | _ =>
    '\r' ∉ cut.data.toList ∧
      ∀ event, cut.block.event = some event → '\n' ∉ event.toList ∧ '\r' ∉ event.toList ∧ Text.trim event = event

end Cut

/-! ### Blocks of server-sent events -/

namespace SseParser

/-- A block with its last line break and the blank line is taken, whatever follows it. -/
theorem takeBlock_lines {lines : List (List UInt8)} (plain : ∀ line ∈ lines, 10 ∉ line ∧ line ≠ []) (some_ : lines ≠ [])
    (rest : List UInt8) :
    takeBlock ([10].intercalate lines ++ 10 :: 10 :: rest) = some ([10].intercalate lines, rest) := by
  have one {line : List UInt8} (plain : 10 ∉ line) (more : List UInt8) :
      takeBlock (line ++ more) = (takeBlock more).map fun taken => (line ++ taken.1, taken.2) := by
    induction line with
    | nil => simp
    | cons byte line ih =>
      have other : byte ≠ 10 := Ne.symm (List.ne_of_not_mem_cons plain)
      rw [List.cons_append, takeBlock, ih (List.not_mem_of_not_mem_cons plain), Option.map_map]
      · rfl
      · intro after newline
        exact absurd newline other
  induction lines with
  | nil => exact absurd rfl some_
  | cons line lines ih =>
    obtain ⟨⟨unbroken, -⟩, later⟩ := List.forall_mem_cons.mp plain
    cases lines with
    | nil =>
      rw [List.intercalate_singleton, one unbroken, takeBlock]
      simp
    | cons next lines =>
      obtain ⟨⟨nextUnbroken, filled⟩, -⟩ := List.forall_mem_cons.mp later
      obtain ⟨byte, bytes, rfl⟩ := List.exists_cons_of_ne_nil filled
      have other : byte ≠ 10 := Ne.symm (List.ne_of_not_mem_cons nextUnbroken)
      have others := ih later (by simp)
      obtain ⟨tail, starts⟩ : ∃ tail, [10].intercalate ((byte :: bytes) :: lines) = byte :: tail := by
        cases lines with
        | nil => exact ⟨bytes, List.intercalate_singleton⟩
        | cons third lines => exact ⟨_, by rw [List.intercalate_cons_cons]; rfl⟩
      rw [starts] at others
      rw [List.intercalate_cons_cons, List.append_assoc, List.append_assoc, one unbroken, starts, List.singleton_append,
        List.cons_append, takeBlock, ← List.cons_append, others]
      · simp
      · intro after newline next
        exact other (List.cons.inj next).1

theorem takeBlock_parts {buf block left : List UInt8} (taken : takeBlock buf = some (block, left)) :
    buf = block ++ 10 :: 10 :: left := by
  induction buf using takeBlock.induct generalizing block with
  | case1 rest =>
    simp only [takeBlock, Option.some.injEq, Prod.mk.injEq] at taken
    obtain ⟨rfl, rfl⟩ := taken
    rfl
  | case2 byte rest other ih =>
    rw [takeBlock] at taken
    · obtain ⟨⟨inner, after⟩, found, same⟩ := Option.map_eq_some_iff.mp taken
      cases same
      rw [List.cons_append, ← ih found]
    · exact other
  | case3 => simp [takeBlock] at taken

/-- A line of data or of an event name is read for what it is. -/
theorem parseLine_data (held : Option String × List (List Char)) (line : List Char) :
    parseLine held ("data: ".toList ++ line) = (held.1, held.2 ++ [line]) := by
  have same : ("data:".toList == "data:".toList) = true := by decide
  have first : ("data: ".toList ++ line).dropPrefix? "data:".toList = some (' ' :: line) :=
    List.dropPrefix?_append_of_beq (' ' :: line) same
  have blank : ([' '] == [' ']) = true := by decide
  have second : (' ' :: line).dropPrefix? [' '] = some line := List.dropPrefix?_append_of_beq line blank
  simp only [parseLine, first, second, Option.getD_some]

theorem trim_blank (chars : List Char) : Text.trim (String.ofList (' ' :: chars)) = Text.trim (String.ofList chars) := by
  rw [Text.trim, Text.trim, String.toList_ofList, String.toList_ofList]
  rfl

theorem parseLine_event (held : Option String × List (List Char)) (event : String) :
    parseLine held ("event: ".toList ++ event.toList) = (some (Text.trim event), held.2) := by
  have read : parseLine held ("event: ".toList ++ event.toList) =
      (some (Text.trim (String.ofList (' ' :: event.toList))), held.2) := rfl
  rw [read, trim_blank, String.ofList_toList]

theorem foldl_data (held : Option String × List (List Char)) (lines : List (List Char)) :
    (lines.map ("data: ".toList ++ ·)).foldl parseLine held = (held.1, held.2 ++ lines) := by
  induction lines generalizing held with
  | nil => simp
  | cons line rest ih => rw [List.map_cons, List.foldl_cons, parseLine_data, ih, List.append_assoc]; rfl

/-- The lines of a block for an event. -/
def blockLines (event : Option String) (data : String) : List (List Char) :=
  (event.map fun event => "event: ".toList ++ event.toList).toList ++
    (data.toList.splitOn '\n').map ("data: ".toList ++ ·)

/-- The lines of an event are read as the event, with its name trimmed. -/
theorem parseBlock_lines (event : Option String) (data : String)
    (unbroken : ∀ name, event = some name → '\n' ∉ name.toList) :
    parseBlock (Text.utf8Bytes (String.ofList (['\n'].intercalate (blockLines event data)))) =
      some ⟨event.map Text.trim, data⟩ := by
  have some_ : data.toList.splitOn '\n' ≠ [] := List.splitOn_ne_nil '\n' data.toList
  have lines : (['\n'].intercalate (blockLines event data)).splitOn '\n' = blockLines event data := by
    refine List.splitOn_intercalate '\n' (fun line listed => ?_) ?_
    · rcases List.mem_append.mp listed with named | carried
      · obtain ⟨name, rfl, rfl⟩ := Option.map_eq_some_iff.mp (Option.mem_toList.mp named)
        rw [List.mem_append, not_or]
        exact ⟨by decide, unbroken name rfl⟩
      · obtain ⟨piece, inside, rfl⟩ := List.mem_map.mp carried
        rw [List.mem_append, not_or]
        exact ⟨by decide, (Records.mem_splitOn inside).1⟩
    · simp [blockLines, some_]
  have named : (event.map fun event => "event: ".toList ++ event.toList).toList.foldl parseLine (none, []) =
      (event.map Text.trim, []) := by
    cases event with
    | none => rfl
    | some name => exact parseLine_event (none, []) name
  have filled : (data.toList.splitOn '\n').isEmpty = false := by simp
  rw [parseBlock, Text.fromUtf8Lossy_utf8Bytes, String.toList_ofList, lines, blockLines, List.foldl_append, named, foldl_data]
  simp only [List.nil_append, filled, Bool.false_and, Bool.false_eq_true, if_false, List.intercalate_splitOn,
    String.ofList_toList]

/-! ### What an event never has -/

/-- The event of a block without carriage returns has none, and its name is one trimmed line. -/
theorem parseBlock_clean {block : List UInt8} (clean : 13 ∉ block) {read : SseEvent} (parsed : parseBlock block = some read) :
    '\r' ∉ read.data.toList ∧
      ∀ name, read.event = some name → '\n' ∉ name.toList ∧ '\r' ∉ name.toList ∧ Text.trim name = name := by
  have chars : '\r' ∉ (Text.fromUtf8Lossy block).toList := by
    rw [← List.count_eq_zero, Text.count_fromUtf8Lossy (by decide)]
    exact List.count_eq_zero.mpr clean
  -- What the lines that have been read add up to.
  have folded (lines : List (List Char)) (plain : ∀ line ∈ lines, '\n' ∉ line ∧ '\r' ∉ line)
      (held : Option String × List (List Char))
      (before : (∀ line ∈ held.2, '\r' ∉ line) ∧
        ∀ name, held.1 = some name → '\n' ∉ name.toList ∧ '\r' ∉ name.toList ∧ Text.trim name = name) :
      (∀ line ∈ (lines.foldl parseLine held).2, '\r' ∉ line) ∧
        ∀ name, (lines.foldl parseLine held).1 = some name →
          '\n' ∉ name.toList ∧ '\r' ∉ name.toList ∧ Text.trim name = name := by
    induction lines generalizing held with
    | nil => exact before
    | cons line rest ih =>
      obtain ⟨⟨unbroken, plainLine⟩, later⟩ := List.forall_mem_cons.mp plain
      refine ih later (parseLine held line) ?_
      unfold parseLine
      split
      · rename_i after found
        obtain ⟨label, rfl, -⟩ := List.dropPrefix?_eq_some_iff.mp found
        refine ⟨fun piece listed => ?_, before.2⟩
        rcases List.mem_append.mp listed with earlier | last
        · exact before.1 piece earlier
        · rw [List.mem_singleton] at last
          subst last
          intro inside
          refine plainLine (List.mem_append_right _ ?_)
          cases blank : after.dropPrefix? [' '] with
          | none => rwa [blank] at inside
          | some stripped =>
            obtain ⟨space, rfl, -⟩ := List.dropPrefix?_eq_some_iff.mp blank
            rw [blank] at inside
            exact List.mem_append_right _ inside
      · split
        · rename_i after found
          obtain ⟨label, rfl, -⟩ := List.dropPrefix?_eq_some_iff.mp found
          refine ⟨before.1, fun name same => ?_⟩
          obtain rfl := Option.some.inj same
          have within {c : Char} (inside : c ∈ (Text.trim (String.ofList after)).toList) : c ∈ label ++ after :=
            List.mem_append_right _ (by simpa using Text.trim_subset inside)
          exact ⟨fun inside => unbroken (within inside), fun inside => plainLine (within inside), Text.trim_trim _⟩
        · exact before
  have lines : ∀ line ∈ (Text.fromUtf8Lossy block).toList.splitOn '\n', '\n' ∉ line ∧ '\r' ∉ line := by
    intro line listed
    obtain ⟨unbroken, within⟩ := Records.mem_splitOn listed
    exact ⟨unbroken, fun inside => chars (within _ inside)⟩
  obtain ⟨data, named⟩ := folded _ lines (none, []) ⟨nofun, nofun⟩
  rw [parseBlock] at parsed
  dsimp only at parsed
  split at parsed
  · cases parsed
  · obtain rfl := Option.some.inj parsed
    refine ⟨?_, named⟩
    rw [String.toList_ofList]
    exact Records.not_mem_intercalate (by decide) data

/-- The events that are fed have no carriage return, and their names are trimmed lines. -/
theorem feed_clean (bytes : List UInt8) : ∀ read ∈ (new.feed bytes).1, '\r' ∉ read.data.toList ∧
    ∀ name, read.event = some name → '\n' ∉ name.toList ∧ '\r' ∉ name.toList ∧ Text.trim name = name := by
  intro read listed
  rw [feed_eq] at listed
  obtain ⟨block, among, parsed⟩ := List.mem_filterMap.mp listed
  have start : 13 ∉ new.buf ++ bytes.filter (· ≠ 13) := by simp [new]
  have takes (buf item left : List UInt8) (clean : 13 ∉ buf) (taken : blocks.take buf = some (item, left)) :
      13 ∉ item ∧ 13 ∉ left := by
    rw [takeBlock_parts taken] at clean
    simp only [List.mem_append, List.mem_cons, not_or] at clean
    exact ⟨clean.1, clean.2.2.2⟩
  exact parseBlock_clean (Framing.Reader.drain_forall takes start block among) parsed

end SseParser

/-! ### The cut of a textual dialect -/

open SseParser (blockLines)

/-- The text of a terminal event is the lines of its block, the last one ended, and a blank line. -/
theorem renderTerminalEvent_toList (streaming : StreamingRejection) (vars : List (String × String)) :
    (Template.renderTerminalEvent streaming vars).toList =
      ['\n'].intercalate (blockLines streaming.event (Template.render streaming.data vars)) ++ ['\n', '\n'] := by
  have ended (lines : List (List Char)) (some_ : lines ≠ []) :
      lines.flatMap (· ++ ['\n']) = ['\n'].intercalate lines ++ ['\n'] := by
    induction lines with
    | nil => exact absurd rfl some_
    | cons line rest ih =>
      cases rest with
      | nil => simp
      | cons next rest =>
        rw [List.flatMap_cons, ih (by simp), List.intercalate_cons_cons]
        simp
  have folded (out : String) (lines : List (List Char)) :
      (lines.foldl (fun out line => out ++ ("data: " ++ String.ofList line ++ "\n")) out).toList =
        out.toList ++ (lines.map ("data: ".toList ++ ·)).flatMap (· ++ ['\n']) := by
    induction lines generalizing out with
    | nil => simp
    | cons line rest ih =>
      rw [List.foldl_cons, ih, List.map_cons, List.flatMap_cons]
      simp
  have some_ : blockLines streaming.event (Template.render streaming.data vars) ≠ [] := by
    simp [blockLines]
  have blank : ['\n', '\n'] = ['\n'] ++ ['\n'] := rfl
  rw [blank, ← List.append_assoc, ← ended _ some_, Template.renderTerminalEvent, String.toList_append, folded, blockLines,
    List.flatMap_append]
  cases streaming.event with
  | none => rfl
  | some event => simp

/-- The lines of an event without carriage returns, under a name of one line. -/
theorem blockLines_clean {event : Option String} {data : String} (clean : '\r' ∉ data.toList)
    (named : ∀ name, event = some name → '\n' ∉ name.toList ∧ '\r' ∉ name.toList) :
    ∀ line ∈ blockLines event data, '\n' ∉ line ∧ '\r' ∉ line ∧ line ≠ [] := by
  intro line listed
  rcases List.mem_append.mp listed with first | carried
  · obtain ⟨name, rfl, rfl⟩ := Option.map_eq_some_iff.mp (Option.mem_toList.mp first)
    obtain ⟨unbroken, plain⟩ := named name rfl
    simp only [List.mem_append, not_or]
    exact ⟨⟨by decide, unbroken⟩, ⟨by decide, plain⟩, by simp⟩
  · obtain ⟨piece, inside, rfl⟩ := List.mem_map.mp carried
    obtain ⟨unbroken, within⟩ := Records.mem_splitOn inside
    simp only [List.mem_append, not_or]
    exact ⟨⟨by decide, unbroken⟩, ⟨by decide, fun among => clean (within _ among)⟩, by simp⟩

/-- What is written for an event without carriage returns, under a name of one line, is read as the event with the name
    trimmed. -/
theorem feed_terminalEvent {streaming : StreamingRejection} {vars : List (String × String)}
    (clean : '\r' ∉ (Template.render streaming.data vars).toList)
    (named : ∀ event, streaming.event = some event → '\n' ∉ event.toList ∧ '\r' ∉ event.toList) :
    SseParser.new.feed (Text.utf8Bytes (Template.renderTerminalEvent streaming vars)) =
      ([⟨streaming.event.map Text.trim, Template.render streaming.data vars⟩], ⟨[]⟩) := by
  have lines := blockLines_clean clean named
  have some_ : (blockLines streaming.event (Template.render streaming.data vars)).map
      (List.flatMap fun c => Text.utf8Encode c.toNat) ≠ [] := by simp [blockLines]
  have newline : Text.utf8Encode '\n'.toNat = [10] := by decide
  have block : Text.utf8Bytes (String.ofList (['\n'].intercalate
      (blockLines streaming.event (Template.render streaming.data vars)))) =
        [10].intercalate ((blockLines streaming.event (Template.render streaming.data vars)).map
          (List.flatMap fun c => Text.utf8Encode c.toNat)) := by
    rw [Text.utf8Bytes, String.toList_ofList, Text.flatMap_intercalate, List.flatMap_singleton, newline]
  have bytes : Text.utf8Bytes (Template.renderTerminalEvent streaming vars) =
      [10].intercalate ((blockLines streaming.event (Template.render streaming.data vars)).map
        (List.flatMap fun c => Text.utf8Encode c.toNat)) ++ 10 :: 10 :: [] := by
    rw [Text.utf8Bytes, renderTerminalEvent_toList, List.flatMap_append, Text.flatMap_intercalate, List.flatMap_singleton,
      List.flatMap_cons, List.flatMap_singleton, newline]
    rfl
  have kept : (Text.utf8Bytes (Template.renderTerminalEvent streaming vars)).filter (· ≠ 13) =
      Text.utf8Bytes (Template.renderTerminalEvent streaming vars) := by
    refine List.filter_eq_self.mpr fun byte inside => decide_eq_true ?_
    rintro rfl
    refine absurd ((Text.mem_utf8Bytes (by decide)).mp inside : '\r' ∈ _) ?_
    rw [renderTerminalEvent_toList, List.mem_append, not_or]
    exact ⟨Records.not_mem_intercalate (by decide) fun line listed => (lines line listed).2.1, by decide⟩
  have written : ∀ line ∈ (blockLines streaming.event (Template.render streaming.data vars)).map
      (List.flatMap fun c => Text.utf8Encode c.toNat), 10 ∉ line ∧ line ≠ [] := by
    intro line listed
    obtain ⟨chars, inside, rfl⟩ := List.mem_map.mp listed
    obtain ⟨unbroken, -, filled⟩ := lines chars inside
    have same : Text.utf8Bytes (String.ofList chars) = chars.flatMap fun c => Text.utf8Encode c.toNat := by
      rw [Text.utf8Bytes, String.toList_ofList]
    refine ⟨fun among => unbroken ?_, fun none => filled ?_⟩
    · rw [← same] at among
      have inText : '\n' ∈ (String.ofList chars).toList := (Text.mem_utf8Bytes (by decide)).mp among
      rwa [String.toList_ofList] at inText
    · have empty : String.ofList chars = "" := Text.utf8Bytes_injective (same.trans none)
      simpa using congrArg String.toList empty
  have taken := SseParser.takeBlock_lines written some_ []
  rw [← bytes, ← block, ← SseParser.blocks_take] at taken
  have parsed := SseParser.parseBlock_lines streaming.event (Template.render streaming.data vars)
    fun name same => (named name same).1
  have read := Framing.Reader.drain_some taken
  have rest : SseParser.blocks.drain [] = ([], []) := Framing.Reader.drain_none (SseParser.blocks_take [])
  rw [SseParser.feed_eq, kept, Framing.Reader.feed, SseParser.new, List.nil_append, read, rest, List.filterMap_cons, parsed]
  rfl

/-- The event is read back exactly when its data has no carriage return and its name is one trimmed line. -/
theorem terminalEvent_read_iff (streaming : StreamingRejection) (vars : List (String × String)) :
    SseParser.new.feed (Text.utf8Bytes (Template.renderTerminalEvent streaming vars)) =
        ([⟨streaming.event, Template.render streaming.data vars⟩], ⟨[]⟩) ↔
      '\r' ∉ (Template.render streaming.data vars).toList ∧
        ∀ event, streaming.event = some event → '\n' ∉ event.toList ∧ '\r' ∉ event.toList ∧ Text.trim event = event := by
  constructor
  · intro read
    have clean := SseParser.feed_clean (Text.utf8Bytes (Template.renderTerminalEvent streaming vars))
    rw [read] at clean
    exact clean _ List.mem_cons_self
  · rintro ⟨clean, named⟩
    rw [feed_terminalEvent clean fun event same => ⟨(named event same).1, (named event same).2.1⟩]
    have trimmed : streaming.event.map Text.trim = streaming.event := by
      cases event : streaming.event with
      | none => rfl
      | some name => exact congrArg some (named name event).2.2
    rw [trimmed]

/-! ### The cut on Bedrock -/

open EventStream (encodeFrame frameLength headerBytes encodeHeader checksum HeaderFits)

variable {crc32 : List UInt8 → UInt32} {streaming : StreamingRejection} {payload : List UInt8}

theorem exceptionType_length : (Text.utf8Bytes ":exception-type").length = 15 := by decide

/-- A terminal frame that fits is read as the one frame. -/
theorem feed_terminalFrame (short : (Text.utf8Bytes (streaming.event.getD "stream_cut")).length ≤ 65535)
    (length : frameLength (Template.terminalHeaders streaming) payload < 2 ^ 32) :
    EventStream.FrameDecoder.new.feed (checksum crc32) (encodeFrame crc32 (Template.terminalHeaders streaming) payload) =
      (.ok [⟨(Template.terminalHeaders streaming).reverse, payload⟩], ⟨[]⟩) := by
  have fits : ∀ header ∈ Template.terminalHeaders streaming, HeaderFits header := by
    have message : HeaderFits (":message-type", "exception") := ⟨by decide, by decide⟩
    have type : HeaderFits (":exception-type", streaming.event.getD "stream_cut") :=
      ⟨by rw [exceptionType_length]; decide, short⟩
    have content : HeaderFits (":content-type", "application/json") := ⟨by decide, by decide⟩
    exact List.forall_mem_cons.mpr ⟨message, List.forall_mem_cons.mpr ⟨type, List.forall_mem_cons.mpr ⟨content, nofun⟩⟩⟩
  have taken : (EventStream.frames (checksum crc32)).take _ = _ :=
    (EventStream.frames_take _).trans (EventStream.takeFrame_encode fits length [])
  rw [List.append_nil] at taken
  have nothing : (EventStream.frames (checksum crc32)).take [] = none := rfl
  have drained : (EventStream.frames (checksum crc32)).drain
      (encodeFrame crc32 (Template.terminalHeaders streaming) payload) =
        ([.ok ⟨(Template.terminalHeaders streaming).reverse, payload⟩], []) := by
    rw [Framing.Reader.drain_some taken, Framing.Reader.drain_none nothing]
  have well : (Framing.sound ((EventStream.frames (checksum crc32)).feed []
      (encodeFrame crc32 (Template.terminalHeaders streaming) payload)).1).2 = none := by
    rw [Framing.Reader.feed, List.nil_append, drained]
    rfl
  rw [EventStream.FrameDecoder.new, EventStream.feed_sound well, Framing.Reader.feed, List.nil_append, drained]
  rfl

/-- A terminal frame that is read as one frame, under the operator's name, has a name and a length that fit. -/
theorem fits_of_feed {frame : EventStream.Frame}
    (read : EventStream.FrameDecoder.new.feed (checksum crc32)
      (encodeFrame crc32 (Template.terminalHeaders streaming) payload) = (.ok [frame], ⟨[]⟩))
    (named : frame.headers.lookup ":exception-type" = some (streaming.event.getD "stream_cut")) :
    (Text.utf8Bytes (streaming.event.getD "stream_cut")).length ≤ 65535 ∧
      frameLength (Template.terminalHeaders streaming) payload < 2 ^ 32 := by
  obtain ⟨total, decoded⟩ := EventStream.FrameDecoder.feed_one read
  generalize name : streaming.event.getD "stream_cut" = event at *
  have length : frameLength (Template.terminalHeaders streaming) payload < 2 ^ 32 := by
    have starts : (encodeFrame crc32 (Template.terminalHeaders streaming) payload).take 4 =
        BigEndian.encode 4 (frameLength (Template.terminalHeaders streaming) payload) := by
      simp [encodeFrame, EventStream.beforeChecksum, EventStream.prelude]
    rw [starts, EventStream.fromBeBytes_eq, BigEndian.decode_encode_mod, EventStream.encodeFrame_length] at total
    omega
  refine ⟨?_, length⟩
  have short : (headerBytes (Template.terminalHeaders streaming)).length < 2 ^ 32 := by
    unfold frameLength at length
    omega
  obtain ⟨-, headers⟩ := EventStream.decodeFrame_eq_ok short decoded
  obtain ⟨-, -, -, ⟨after, there⟩, -⟩ :=
    EventStream.encodeFrame_parts crc32 (Template.terminalHeaders streaming) payload
  -- The three headers, and how long they are.
  have parts : headerBytes (Template.terminalHeaders streaming) = encodeHeader (":message-type", "exception") ++
      (encodeHeader (":exception-type", event) ++ encodeHeader (":content-type", "application/json")) := by
    simp [headerBytes, Template.terminalHeaders, name]
  have message : (encodeHeader (":message-type", "exception")).length = 26 := by decide
  have content : (encodeHeader (":content-type", "application/json")).length = 33 := by decide
  have type : (encodeHeader (":exception-type", event)).length = 19 + (Text.utf8Bytes event).length := by
    rw [EventStream.encodeHeader_length, exceptionType_length]
  have size : (headerBytes (Template.terminalHeaders streaming)).length = 78 + (Text.utf8Bytes event).length := by
    rw [parts, List.length_append, List.length_append, message, content, type]
    omega
  rw [parts, List.append_assoc, List.append_assoc] at there
  rw [size] at headers
  obtain ⟨fuel, enough⟩ : ∃ fuel, 12 + (78 + (Text.utf8Bytes event).length) = fuel + 1 + 1 :=
    ⟨88 + (Text.utf8Bytes event).length, by omega⟩
  -- The first header is read as it is, and the second with as much of the name as its length says.
  have first : HeaderFits (":message-type", "exception") := ⟨by decide, by decide⟩
  have next := (EventStream.slice_part there).2
  obtain ⟨taken, cut⟩ : ∃ taken, taken = (Text.utf8Bytes event).length % 65536 := ⟨_, rfl⟩
  have within : taken ≤ (Text.utf8Bytes event).length := cut ▸ Nat.mod_le _ _
  have typeShort : (Text.utf8Bytes ":exception-type").length ≤ 255 := by rw [exceptionType_length]; decide
  rw [enough, EventStream.decodeHeaders_header first there (by omega), message] at headers
  rw [message] at next
  rw [EventStream.decodeHeaders_pass typeShort next cut (by rw [exceptionType_length]; omega), exceptionType_length,
    ← enough] at headers
  -- No header after it can have the name, which has more of the letter x than is left.
  obtain ⟨more, read, bounded⟩ := EventStream.decodeHeaders_count 'x' (by decide) headers
  have left := EventStream.drop_pass next within
  rw [exceptionType_length, ← List.append_assoc] at left
  obtain ⟨region, -⟩ := EventStream.slice_part left
  rw [List.length_append, List.length_drop, content] at region
  have stop : 12 + (78 + (Text.utf8Bytes event).length) =
      12 + 26 + (4 + 15 + taken) + ((Text.utf8Bytes event).length - taken + 33) := by omega
  have none_ : (encodeHeader (":content-type", "application/json")).count (.ofNat 'x'.toNat) = 0 := by decide
  have few : ((Text.utf8Bytes event).drop taken).count (.ofNat 'x'.toNat) ≤ event.toList.count 'x' := by
    rw [← Text.count_utf8Bytes (by decide)]
    exact (List.drop_sublist _ _).count_le _
  rw [stop, region, List.count_append, none_, Nat.add_zero] at bounded
  have x : ":exception-type".toList.count 'x' = 1 := by decide
  rw [read, List.lookup_append] at named
  cases later : more.lookup ":exception-type" with
  | some value =>
    rw [later] at named
    obtain rfl := Option.some.inj named
    obtain ⟨before, rest, rfl, -⟩ := List.lookup_eq_some_iff.mp later
    have bound : ":exception-type".toList.count 'x' + value.toList.count 'x' ≤ _ :=
      bounded (":exception-type", value) (by simp)
    rw [x] at bound
    omega
  | none =>
    rw [later, Option.none_or, List.lookup_cons_self] at named
    have bound := Text.length_of_take (Option.some.inj named)
    omega

/-- The frame is read back exactly when its name and its length fit. -/
theorem terminalFrame_read_iff (crc32 : List UInt8 → UInt32) (streaming : StreamingRejection) (payload : List UInt8) :
    (∃ frame,
      EventStream.FrameDecoder.new.feed (checksum crc32) (encodeFrame crc32 (Template.terminalHeaders streaming) payload) =
          (.ok [frame], ⟨[]⟩) ∧
        frame.headers.lookup ":message-type" = some "exception" ∧
        frame.headers.lookup ":exception-type" = some (streaming.event.getD "stream_cut") ∧ frame.payload = payload) ↔
      (Text.utf8Bytes (streaming.event.getD "stream_cut")).length ≤ 65535 ∧
        frameLength (Template.terminalHeaders streaming) payload < 2 ^ 32 := by
  constructor
  · rintro ⟨frame, read, -, named, -⟩
    exact fits_of_feed read named
  · rintro ⟨short, length⟩
    have messageType : (Template.terminalHeaders streaming).reverse.lookup ":message-type" = some "exception" := by
      simp [Template.terminalHeaders, List.lookup_cons]
    have exceptionType : (Template.terminalHeaders streaming).reverse.lookup ":exception-type" =
        some (streaming.event.getD "stream_cut") := by
      simp [Template.terminalHeaders, List.lookup_cons]
    exact ⟨⟨(Template.terminalHeaders streaming).reverse, payload⟩, feed_terminalFrame short length, messageType,
      exceptionType, rfl⟩

namespace Cut

/-- The cut is read as the one event, with the operator's name and the rendered data, exactly when its texts fit the
    framing of the dialect. -/
theorem cut_event_read_iff (crc32 : List UInt8 → UInt32) (cut : Cut) : cut.SpeaksDialect crc32 ↔ cut.Fits := by
  have textual := terminalEvent_read_iff cut.block cut.vars
  have framed := terminalFrame_read_iff crc32 cut.block (Text.utf8Bytes cut.data)
  unfold SpeaksDialect Fits renderCutEvent
  cases cut.kind with
  | bedrock => exact framed
  | openai => exact textual
  | anthropic => exact textual
  | vertex => exact textual

/-- A block whose event name has two lines. -/
def brokenBlock : StreamingRejection := ⟨some "over\nbudget", "stop"⟩

/-- The block is accepted, and its name is read as the first of its lines. -/
theorem broken_name_is_lost :
    Config.validateTemplate ⟨429, "application/json", "stop", some brokenBlock⟩ "cap_exceeded"
        ["key", "route", "cap", "spend"] = [] ∧
      SseParser.new.feed (renderCutEvent (fun _ => 0) ⟨some brokenBlock, .openai, ⟨"team", "ml"⟩, 10, 12, "/openai"⟩) =
        ([⟨some "over", "stop"⟩], ⟨[]⟩) ∧
      ¬ SpeaksDialect (fun _ => 0) ⟨some brokenBlock, .openai, ⟨"team", "ml"⟩, 10, 12, "/openai"⟩ := by
  have read : SseParser.new.feed
      (renderCutEvent (fun _ => 0) ⟨some brokenBlock, .openai, ⟨"team", "ml"⟩, 10, 12, "/openai"⟩) =
        ([⟨some "over", "stop"⟩], ⟨[]⟩) := by decide
  refine ⟨by decide, read, fun speaks => ?_⟩
  have events : ([⟨some "over", "stop"⟩] : List SseEvent) = [⟨some "over\nbudget", _⟩] :=
    congrArg Prod.fst (read.symm.trans speaks)
  exact absurd events (by simp)

/-- A spender whose value has a carriage return is told of without it. -/
theorem carriage_return_is_lost :
    let block : StreamingRejection := ⟨none, "\x7b\x7bkey\x7d\x7d"⟩
    SseParser.new.feed (renderCutEvent (fun _ => 0) ⟨some block, .openai, ⟨"team", "m\rl"⟩, 10, 12, "/openai"⟩) =
      ([⟨none, "team=ml"⟩], ⟨[]⟩) := by
  decide

end Cut

end SmallGateway
