import SmallGateway.AssumeRoleBody
import SmallGateway.CredentialKeys
import SmallGateway.SignedRequest

/-!
The signed call of the second STS hop (`sign_sts_call` and `http_post` in `gatewayd/src/aws_auth.rs`,
`parse_authorization` in `gateway-core/src/aws.rs`), and the server that reads it and computes the signature again
(`handle` and `verify_chain_signature` of the mock STS). What is sent is read as it was meant, header by header and byte
by byte, and it is accepted with any body of the same hash, under the secret that the server knows and no other
(`chained_call_accepted_iff`).
-/

namespace SmallGateway.Aws

/-! ### The call -/

/-- The address of an endpoint. -/
def addr (endpoint : Config.Upstream) : String := endpoint.host ++ ":" ++ Nat.repr endpoint.port

/-- The request that posts a body, as it is written to the connection. -/
def httpPostRequest (endpoint : Config.Upstream) (path contentType body : String)
    (extraHeaders : List (String × String)) : List UInt8 :=
  let extras := String.join (extraHeaders.map fun (k, v) => k ++ ": " ++ v ++ "\r\n")
  Text.utf8Bytes ("POST " ++ path ++ " HTTP/1.1\r\nHost: " ++ addr endpoint ++ "\r\nContent-Type: " ++ contentType ++
    "\r\n" ++ extras ++ "Content-Length: " ++ Nat.repr (Text.utf8Bytes body).length ++
    "\r\nConnection: close\r\n\r\n" ++ body)

def formType : String := "application/x-www-form-urlencoded"

def httpPostFormRequest (endpoint : Config.Upstream) (path body : String) (extraHeaders : List (String × String)) :
    List UInt8 :=
  httpPostRequest endpoint path formType body extraHeaders

section

variable (hash : SignatureHash)

def sha256Hex (data : List UInt8) : String := Text.hex (hash.sha256 data)

/-- What the signature of a chained call covers. -/
def stsSignParams (amzDate : Nat → String) (endpoint : Config.Upstream) (region : String) (creds : Credentials)
    (body : String) (nowUnix : Nat) : SignParams :=
  let timestamp := amzDate nowUnix
  let payloadHash := sha256Hex hash (Text.utf8Bytes body)
  ⟨"POST", "/", "", region, "sts",
    [("content-type", formType), ("host", addr endpoint), ("x-amz-content-sha256", payloadHash),
      ("x-amz-date", timestamp), ("x-amz-security-token", creds.sessionToken)],
    payloadHash, timestamp⟩

/-- The headers that a chained call has besides those of every post. -/
def signStsCall (amzDate : Nat → String) (endpoint : Config.Upstream) (region : String) (creds : Credentials)
    (body : String) (nowUnix : Nat) : List (String × String) :=
  let params := stsSignParams hash amzDate endpoint region creds body nowUnix
  [("x-amz-content-sha256", params.payloadHash), ("x-amz-date", params.timestamp),
    ("x-amz-security-token", creds.sessionToken),
    ("authorization", params.authorization hash creds.accessKeyId creds.secretAccessKey)]

/-- A chained call as it is written to the connection. -/
def chainedCall (amzDate : Nat → String) (endpoint : Config.Upstream) (region : String) (creds : Credentials)
    (body : String) (nowUnix : Nat) : List UInt8 :=
  httpPostFormRequest endpoint "/" body (signStsCall hash amzDate endpoint region creds body nowUnix)

end

/-! ### Reading an authorization -/

/-- What an authorization says. -/
structure ParsedAuthorization where
  accessKeyId : String
  date : String
  region : String
  service : String
  signedHeaders : List String
  signature : String
  deriving DecidableEq

/-- The parts of an authorization that have been found, the last one of each kind. -/
structure AuthorizationParts where
  credential : Option (List Char)
  signedHeaders : Option (List Char)
  signature : Option (List Char)

def AuthorizationParts.read (found : AuthorizationParts) (part : List Char) : AuthorizationParts :=
  let part := (Text.trim (String.ofList part)).toList
  match part.dropPrefix? "Credential=".toList with
  | some v => { found with credential := some v }
  | none =>
    match part.dropPrefix? "SignedHeaders=".toList with
    | some v => { found with signedHeaders := some v }
    | none =>
      match part.dropPrefix? "Signature=".toList with
      | some v => { found with signature := some v }
      | none => found

/-- What is there, or the error that says that it is not. -/
def okOr {α : Type} (found : Option α) (error : String) : Except String α :=
  match found with
  | some a => .ok a
  | none => .error error

@[simp] theorem okOr_some {α : Type} (a : α) (error : String) : okOr (some a) error = .ok a := rfl

def parseAuthorization (header : String) : Except String ParsedAuthorization := do
  let rest ← okOr (header.toList.dropPrefix? "AWS4-HMAC-SHA256 ".toList) "not a SigV4 Authorization header"
  let found := (rest.splitOn ',').foldl AuthorizationParts.read ⟨none, none, none⟩
  let credential ← okOr found.credential "Authorization has no Credential"
  match credential.splitOn '/' with
  | [accessKeyId, date, region, service, tail] =>
    if tail ≠ "aws4_request".toList then
      .error ("Credential scope must end in aws4_request, got " ++ Text.debugStr (String.ofList tail))
    else
      let signedHeaders ← okOr found.signedHeaders "Authorization has no SignedHeaders"
      let signature ← okOr found.signature "Authorization has no Signature"
      .ok ⟨String.ofList accessKeyId, String.ofList date, String.ofList region, String.ofList service,
        (signedHeaders.splitOn ';').map String.ofList, String.ofList signature⟩
  | _ => .error ("malformed Credential scope " ++ Text.debugStr (String.ofList credential))

/-! ### The server -/

/-- How a connection ends without a request: closed in the middle of the head, a line that is no text, or a body that is
    too short. -/
inductive NoRequest where
  | closed
  | invalid
  | short
  deriving DecidableEq

/-- The bytes up to the next newline with it, and those that follow. -/
def readLine : List UInt8 → List UInt8 × List UInt8
  | [] => ([], [])
  | byte :: rest =>
    if byte = 10 then ([byte], rest)
    else
      let (line, left) := readLine rest
      (byte :: line, left)

/-- The text that bytes are, when they are one. -/
def textOf? (bytes : List UInt8) : Option String :=
  let text := Text.fromUtf8Lossy bytes
  if Text.utf8Bytes text = bytes then some text else none

def trimEnd (text : String) : String := String.ofList (text.toList.rdropWhile Text.isWhitespace)

/-- A line of a head as a header. -/
def headerOf (line : String) : Option (String × String) :=
  (Text.splitOnce ':' line.toList).map fun (name, value) =>
    ((Text.trim (String.ofList name)).toLower, Text.trim (String.ofList value))

/-- The headers up to the empty line, and what follows it. Every line takes a byte, so that as much fuel as bytes is
    enough. -/
def readHeaders : Nat → List UInt8 → Except NoRequest (List (String × String) × List UInt8)
  | 0, _ => .error .closed
  | fuel + 1, bytes =>
    let (line, left) := readLine bytes
    if line = [] then .error .closed
    else
      match textOf? line with
      | none => .error .invalid
      | some text =>
        let header := trimEnd text
        if header = "" then .ok ([], left)
        else
          match readHeaders fuel left with
          | .error e => .error e
          | .ok (headers, left) => .ok ((headerOf header).toList ++ headers, left)

/-- The length of the body that the headers give, the last of them. -/
def contentLength (headers : List (String × String)) : Nat :=
  ((headers.filter (·.1 = "content-length")).getLast?.bind fun header => Text.parseU64 header.2).getD 0

/-- The headers and the body of a request, as the mock STS reads them. -/
def readRequest (bytes : List UInt8) : Except NoRequest (List (String × String) × List UInt8) :=
  let (line, left) := readLine bytes
  if line = [] then .error .closed
  else if (textOf? line).isNone then .error .invalid
  else
    match readHeaders (left.length + 1) left with
    | .error e => .error e
    | .ok (headers, left) =>
      if left.length < contentLength headers then .error .short
      else .ok (headers, left.take (contentLength headers))

section

variable (hash : SignatureHash)

def mockSeed : List UInt8 := Text.utf8Bytes "mock-sts-shared-seed"

/-- The secret of an access key. -/
def secretFor (accessKeyId : String) : String := Text.hex (hash.hmac mockSeed (Text.utf8Bytes accessKeyId))

/-- The signature computed again from what was received, and the hash of the payload from the body. -/
def verifyChainSignature (headers : List (String × String)) (body : List UInt8) : Except String Unit := do
  let auth ← okOr (headers.lookup "authorization") "chained AssumeRole must be SigV4-signed"
  let parsed ← parseAuthorization auth
  let secret := secretFor hash parsed.accessKeyId
  let payloadHash ← okOr (headers.lookup "x-amz-content-sha256") "no x-amz-content-sha256"
  if payloadHash ≠ sha256Hex hash body then .error "payload hash does not match the request body"
  else
    let timestamp ← okOr (headers.lookup "x-amz-date") "no x-amz-date"
    let signed ← parsed.signedHeaders.mapM fun name =>
      (okOr (headers.lookup name) ("signed header " ++ Text.debugStr name ++ " missing")).map fun value => (name, value)
    if parsed.service ≠ "sts" then .error ("signed for service " ++ Text.debugStr parsed.service ++ ", want sts")
    else
      let params : SignParams := ⟨"POST", "/", "", parsed.region, parsed.service, signed, payloadHash, timestamp⟩
      let expected := params.signature hash secret
      if expected ≠ parsed.signature then
        .error ("signature mismatch (expected " ++ expected ++ ", got " ++ parsed.signature ++ ")")
      else .ok ()

end

/-! ### White space around a text -/

section

variable {α : Type} {p : α → Bool}

theorem dropWhile_append_stop {x : α} (stops : p x = false) (before after : List α) :
    (before ++ x :: after).dropWhile p = before.dropWhile p ++ x :: after := by
  induction before with
  | nil => exact List.dropWhile_cons_of_neg (by simp [stops])
  | cons y rest ih =>
    rw [List.cons_append, List.dropWhile_cons, List.dropWhile_cons, ih]
    split <;> rfl

theorem rdropWhile_append_stop {x : α} (stops : p x = false) (before after : List α) :
    (before ++ x :: after).rdropWhile p = before ++ x :: after.rdropWhile p := by
  have turned : (before ++ x :: after).reverse = after.reverse ++ x :: before.reverse := by simp
  rw [List.rdropWhile, turned, dropWhile_append_stop stops, List.rdropWhile]
  simp

theorem rdropWhile_append_all {blank : List α} (all : ∀ x ∈ blank, p x = true) (text : List α) :
    (text ++ blank).rdropWhile p = text.rdropWhile p := by
  have dropped : ∀ x ∈ blank.reverse, p x = true := fun x inside => all x (List.mem_reverse.mp inside)
  rw [List.rdropWhile, List.reverse_append, List.dropWhile_append_of_pos dropped, List.rdropWhile]

end

theorem trim_ofList (text : List Char) :
    Text.trim (String.ofList text) =
      String.ofList ((text.dropWhile Text.isWhitespace).rdropWhile Text.isWhitespace) := by
  rw [Text.trim, String.toList_ofList, List.rdropWhile]

theorem trim_blank_append {blank : List Char} (all : ∀ c ∈ blank, Text.isWhitespace c = true) (text : List Char) :
    Text.trim (String.ofList (blank ++ text)) = Text.trim (String.ofList text) := by
  rw [trim_ofList, trim_ofList, List.dropWhile_append_of_pos all]

theorem trim_append_blank {blank : List Char} (all : ∀ c ∈ blank, Text.isWhitespace c = true) (text : List Char) :
    Text.trim (String.ofList (text ++ blank)) = Text.trim (String.ofList text) := by
  rw [trim_ofList, trim_ofList, List.dropWhile_append]
  split
  · rename_i none_
    have nothing := List.isEmpty_iff.mp none_
    have blankToo : blank.dropWhile Text.isWhitespace = [] := List.dropWhile_eq_nil_iff.mpr all
    rw [nothing, blankToo]
  · rw [rdropWhile_append_all all]

/-- White space at the end that is gone already would have been trimmed. -/
theorem trim_rdropWhile (text : List Char) :
    Text.trim (String.ofList (text.rdropWhile Text.isWhitespace)) = Text.trim (String.ofList text) := by
  have blank : ∀ c ∈ text.rtakeWhile Text.isWhitespace, Text.isWhitespace c = true :=
    fun c inside => List.mem_rtakeWhile_imp inside
  calc Text.trim (String.ofList (text.rdropWhile Text.isWhitespace))
    _ = Text.trim (String.ofList (text.rdropWhile Text.isWhitespace ++ text.rtakeWhile Text.isWhitespace)) :=
      (trim_append_blank blank _).symm
    _ = Text.trim (String.ofList text) := by rw [List.rdropWhile_append_rtakeWhile]

/-- A text that neither begins nor ends with white space is left by trimming. -/
theorem trim_of_ends {text : String} (front : ∀ c ∈ text.toList.head?, Text.isWhitespace c = false)
    (back : ∀ c ∈ text.toList.getLast?, Text.isWhitespace c = false) : Text.trim text = text := by
  have kept : text.toList.dropWhile Text.isWhitespace = text.toList := by
    cases chars : text.toList with
    | nil => rfl
    | cons c rest => exact List.dropWhile_cons_of_neg (by simp [front c (by rw [chars]; rfl)])
  have keptToo : text.toList.rdropWhile Text.isWhitespace = text.toList := by
    refine List.rdropWhile_eq_self_iff.mpr fun filled => ?_
    simp [back _ (List.getLast?_eq_some_getLast filled)]
  rw [← String.ofList_toList (s := text), trim_ofList, kept, keptToo]

/-! ### A head -/

theorem textOf?_utf8Bytes (text : String) : textOf? (Text.utf8Bytes text) = some text := by
  rw [textOf?, Text.fromUtf8Lossy_utf8Bytes]
  exact if_pos rfl

theorem readLine_append {line : List UInt8} (single : 10 ∉ line) (rest : List UInt8) :
    readLine (line ++ 10 :: rest) = (line ++ [10], rest) := by
  induction line with
  | nil => rfl
  | cons byte line ih =>
    rw [List.cons_append, readLine, if_neg (Ne.symm (List.ne_of_not_mem_cons single)),
      ih (List.not_mem_of_not_mem_cons single)]
    rfl

/-- A line of text is read as it is written. -/
theorem readLine_text {text : String} (single : '\n' ∉ text.toList) (rest : List UInt8) :
    readLine (Text.utf8Bytes (text ++ "\r\n") ++ rest) = (Text.utf8Bytes (text ++ "\r\n"), rest) := by
  have ends : Text.utf8Bytes "\r\n" = [13, 10] := by decide
  have plain : 10 ∉ Text.utf8Bytes text ++ [13] := by
    have newline : UInt8.ofNat '\n'.toNat = 10 := by decide
    rw [List.mem_append, not_or]
    refine ⟨fun inside => single ((Text.mem_utf8Bytes (by decide)).mp (newline ▸ inside)), by decide⟩
  have line := readLine_append plain rest
  rw [Text.utf8Bytes_append, ends]
  simpa using line

/-- A header as it is written. -/
def headerLine (header : String × String) : String := header.1 ++ ": " ++ header.2 ++ "\r\n"

/-- A header as it is read. -/
def received (header : String × String) : String × String := ((Text.trim header.1).toLower, Text.trim header.2)

/-- The name can be found, and the line is one. -/
structure PlainHeader (header : String × String) : Prop where
  colon : ':' ∉ header.1.toList
  name : '\n' ∉ header.1.toList
  value : '\n' ∉ header.2.toList

theorem trimEnd_headerLine (header : String × String) :
    trimEnd (headerLine header) = String.ofList (header.1.toList ++
      ':' :: (' ' :: header.2.toList ++ ['\r', '\n']).rdropWhile Text.isWhitespace) := by
  have chars : (headerLine header).toList = header.1.toList ++ ':' :: (' ' :: header.2.toList ++ ['\r', '\n']) := by
    simp [headerLine]
  rw [trimEnd, chars, rdropWhile_append_stop (by decide)]

theorem headerOf_headerLine {header : String × String} (colon : ':' ∉ header.1.toList) :
    headerOf (trimEnd (headerLine header)) = some (received header) := by
  have value : Text.trim (String.ofList ((' ' :: header.2.toList ++ ['\r', '\n']).rdropWhile Text.isWhitespace)) =
      Text.trim header.2 := by
    have blank : ∀ c ∈ [' '], Text.isWhitespace c = true := List.all_eq_true.mp (by decide)
    have ends : ∀ c ∈ ['\r', '\n'], Text.isWhitespace c = true := List.all_eq_true.mp (by decide)
    calc Text.trim (String.ofList ((' ' :: header.2.toList ++ ['\r', '\n']).rdropWhile Text.isWhitespace))
      _ = Text.trim (String.ofList ([' '] ++ (header.2.toList ++ ['\r', '\n']))) := trim_rdropWhile _
      _ = Text.trim header.2 := by
        rw [trim_blank_append blank, trim_append_blank ends, String.ofList_toList]
  rw [trimEnd_headerLine, headerOf, String.toList_ofList, Text.splitOnce_append colon, Option.map_some]
  show some ((Text.trim (String.ofList header.1.toList)).toLower, Text.trim (String.ofList _)) = some (received header)
  rw [value, String.ofList_toList, received]

/-- The headers that are written are read, and what follows them is left. -/
theorem readHeaders_written {headers : List (String × String)} (plain : ∀ header ∈ headers, PlainHeader header)
    (rest : List UInt8) {fuel : Nat} (enough : headers.length < fuel) :
    readHeaders fuel (headers.flatMap (fun header => Text.utf8Bytes (headerLine header)) ++
      (Text.utf8Bytes "\r\n" ++ rest)) = .ok (headers.map received, rest) := by
  induction headers generalizing fuel with
  | nil =>
    cases fuel with
    | zero => cases enough
    | succ fuel =>
      have line := @readLine_text "" (by decide) rest
      have filled : Text.utf8Bytes ("" ++ "\r\n") ≠ [] := by decide
      have empty : trimEnd ("" ++ "\r\n") = "" := by decide
      have text : "\r\n" = "" ++ "\r\n" := by decide
      rw [List.flatMap_nil, List.nil_append, text, readHeaders, line]
      simp only [if_neg filled, textOf?_utf8Bytes, empty, if_true, List.map_nil]
  | cons header others ih =>
    cases fuel with
    | zero => cases enough
    | succ fuel =>
      obtain ⟨⟨colon, name, value⟩, later⟩ := List.forall_mem_cons.mp plain
      have single : '\n' ∉ (header.1 ++ ": " ++ header.2).toList := by
        simp [String.toList_append, name, value]
      have line := readLine_text single (others.flatMap (fun header => Text.utf8Bytes (headerLine header)) ++
        (Text.utf8Bytes "\r\n" ++ rest))
      rw [← headerLine] at line
      have filled : Text.utf8Bytes (headerLine header) ≠ [] := by
        have ends : Text.utf8Bytes "\r\n" = [13, 10] := by decide
        rw [headerLine, Text.utf8Bytes_append, ends]
        simp
      have there : trimEnd (headerLine header) ≠ "" := by
        intro none_
        have chars := congrArg String.toList none_
        rw [trimEnd_headerLine, String.toList_ofList] at chars
        simp at chars
      rw [List.flatMap_cons, List.append_assoc, readHeaders, line]
      simp only [if_neg filled, textOf?_utf8Bytes, if_neg there, headerOf_headerLine colon,
        ih later (Nat.lt_of_succ_lt_succ enough), List.map_cons, Option.toList_some, List.singleton_append]

/-! ### A post -/

/-- The headers of a post. -/
def sentHeaders (endpoint : Config.Upstream) (contentType body : String) (extraHeaders : List (String × String)) :
    List (String × String) :=
  [("Host", addr endpoint), ("Content-Type", contentType)] ++ extraHeaders ++
    [("Content-Length", Nat.repr (Text.utf8Bytes body).length), ("Connection", "close")]

theorem utf8Bytes_join (texts : List String) : Text.utf8Bytes (String.join texts) = texts.flatMap Text.utf8Bytes := by
  rw [Text.utf8Bytes, String.toList_join, List.flatMap_assoc]
  rfl

/-- A post is a line, its headers, an empty line and the body. -/
theorem httpPostRequest_lines (endpoint : Config.Upstream) (path contentType body : String)
    (extraHeaders : List (String × String)) :
    httpPostRequest endpoint path contentType body extraHeaders =
      Text.utf8Bytes ("POST " ++ path ++ " HTTP/1.1" ++ "\r\n") ++
        ((sentHeaders endpoint contentType body extraHeaders).flatMap
          (fun header => Text.utf8Bytes (headerLine header)) ++ (Text.utf8Bytes "\r\n" ++ Text.utf8Bytes body)) := by
  have lines : (sentHeaders endpoint contentType body extraHeaders).flatMap
      (fun header => Text.utf8Bytes (headerLine header)) = Text.utf8Bytes
        (String.join ((sentHeaders endpoint contentType body extraHeaders).map headerLine)) := by
    rw [utf8Bytes_join, List.flatMap_map]
  have extras : (extraHeaders.map fun (k, v) => k ++ ": " ++ v ++ "\r\n") = extraHeaders.map headerLine := rfl
  rw [httpPostRequest, extras, lines, ← Text.utf8Bytes_append, ← Text.utf8Bytes_append, ← Text.utf8Bytes_append]
  refine congrArg Text.utf8Bytes (String.toList_inj.mp ?_)
  simp [sentHeaders, headerLine]

theorem parseU64_repr {n : Nat} (small : n < 2 ^ 64) : Text.parseU64 (Nat.repr n) = some n := by
  have digits : (Nat.repr n).toList = Nat.toDigits 10 n := Nat.toList_repr
  have noPlus : (Nat.repr n).toList.head? ≠ some '+' := by
    intro plus
    exact Text.not_mem_repr (by decide) n (List.mem_of_head? plus)
  have all : (Nat.repr n).toList.all Char.isDigit = true :=
    List.all_eq_true.mpr fun c inside => Text.isDigit_of_mem_repr inside
  have filled : (Nat.repr n).toList ≠ [] := by
    rw [digits]
    exact Nat.toDigits_ne_nil
  have value : (Nat.repr n).toList.foldl (fun value c => value * 10 + (c.toNat - '0'.toNat)) 0 = n := by
    have read := Nat.ofDigitChars_toDigits (b := 10) (n := n) (by decide) (by decide)
    rw [Nat.ofDigitChars_eq_foldl, ← digits] at read
    simpa only [Nat.mul_comm] using read
  rw [Text.parseU64]
  simp only [if_neg noPlus, value]
  rw [if_pos ⟨filled, all⟩, if_pos small]

/-- A visible character of ASCII is no white space. -/
theorem isWhitespace_visible {c : Char} (visible : 32 < c.toNat ∧ c.toNat < 127) : Text.isWhitespace c = false := by
  simp [Text.isWhitespace]
  omega

theorem isDigit_visible {c : Char} (digit : c.isDigit = true) : 32 < c.toNat ∧ c.toNat < 127 := by
  have bounds : 48 ≤ c.val ∧ c.val ≤ 57 := by simpa [Char.isDigit] using digit
  have lower : 48 ≤ c.toNat := bounds.1
  have upper : c.toNat ≤ 57 := bounds.2
  omega

theorem repr_visible (n : Nat) : ∀ c ∈ (Nat.repr n).toList, 32 < c.toNat ∧ c.toNat < 127 :=
  fun _ inside => isDigit_visible (Text.isDigit_of_mem_repr inside)

theorem trim_visible {text : String} (visible : ∀ c ∈ text.toList, 32 < c.toNat ∧ c.toNat < 127) :
    Text.trim text = text :=
  trim_of_plain fun c inside => isWhitespace_visible (visible c inside)

/-- The length that a post gives is that of its body. -/
theorem contentLength_sentHeaders {endpoint : Config.Upstream} {contentType body : String}
    {extraHeaders : List (String × String)} (small : (Text.utf8Bytes body).length < 2 ^ 64) :
    contentLength ((sentHeaders endpoint contentType body extraHeaders).map received) =
      (Text.utf8Bytes body).length := by
  have length : received ("Content-Length", Nat.repr (Text.utf8Bytes body).length) =
      ("content-length", Nat.repr (Text.utf8Bytes body).length) := by
    have name : (Text.trim "Content-Length").toLower = "content-length" := by decide +kernel
    rw [received, name, trim_visible (repr_visible _)]
  have connection : received ("Connection", "close") = ("connection", "close") := by decide +kernel
  have last : ((sentHeaders endpoint contentType body extraHeaders).map received).filter (·.1 = "content-length") =
      (([("Host", addr endpoint), ("Content-Type", contentType)] ++ extraHeaders).map received).filter
        (·.1 = "content-length") ++ [("content-length", Nat.repr (Text.utf8Bytes body).length)] := by
    rw [sentHeaders, List.map_append, List.filter_append, List.map_cons, List.map_cons, List.map_nil, length,
      connection]
    rfl
  rw [contentLength, last, List.getLast?_concat, Option.bind_some, parseU64_repr small, Option.getD_some]

theorem length_le_lines (headers : List (String × String)) :
    headers.length ≤ (headers.flatMap fun header => Text.utf8Bytes (headerLine header)).length := by
  induction headers with
  | nil => exact Nat.le_refl 0
  | cons header rest ih =>
    have ends : Text.utf8Bytes "\r\n" = [13, 10] := by decide
    have filled : 0 < (Text.utf8Bytes (headerLine header)).length := by
      rw [headerLine, Text.utf8Bytes_append, ends]
      simp
    rw [List.flatMap_cons, List.length_cons, List.length_append]
    omega

/-- A post is read as it was meant. -/
theorem readRequest_post {endpoint : Config.Upstream} {path contentType body : String}
    {extraHeaders : List (String × String)} (single : '\n' ∉ path.toList)
    (plain : ∀ header ∈ sentHeaders endpoint contentType body extraHeaders, PlainHeader header)
    (small : (Text.utf8Bytes body).length < 2 ^ 64) :
    readRequest (httpPostRequest endpoint path contentType body extraHeaders) =
      .ok ((sentHeaders endpoint contentType body extraHeaders).map received, Text.utf8Bytes body) := by
  have first : '\n' ∉ ("POST " ++ path ++ " HTTP/1.1").toList := by
    simp [String.toList_append, single]
  have filled : Text.utf8Bytes ("POST " ++ path ++ " HTTP/1.1" ++ "\r\n") ≠ [] := by
    have ends : Text.utf8Bytes "\r\n" = [13, 10] := by decide
    rw [Text.utf8Bytes_append, ends]
    simp
  have enough : (sentHeaders endpoint contentType body extraHeaders).length <
      ((sentHeaders endpoint contentType body extraHeaders).flatMap
        (fun header => Text.utf8Bytes (headerLine header)) ++
          (Text.utf8Bytes "\r\n" ++ Text.utf8Bytes body)).length + 1 := by
    have lines := length_le_lines (sentHeaders endpoint contentType body extraHeaders)
    rw [List.length_append]
    omega
  rw [httpPostRequest_lines, readRequest, readLine_text first]
  simp only [if_neg filled, textOf?_utf8Bytes, Option.isNone_some, Bool.false_eq_true, if_false,
    readHeaders_written plain _ enough, contentLength_sentHeaders small, Nat.lt_irrefl, List.take_length]

/-! ### What a chained call says -/

/-- The characters of a date. -/
def isDateChar (c : Char) : Bool := c.isDigit || c == 'T' || c == 'Z'

theorem isDateChar_iff {c : Char} : isDateChar c = true ↔ c.isDigit = true ∨ c = 'T' ∨ c = 'Z' := by
  simp only [isDateChar, Bool.or_eq_true, beq_iff_eq, or_assoc]

/-- What a call is made of can be written into it and found again. -/
structure Signable (amzDate : Nat → String) (endpoint : Config.Upstream) (region : String) (creds : Credentials)
    (nowUnix : Nat) : Prop where
  host : '\n' ∉ endpoint.host.toList
  region : '\n' ∉ region.toList ∧ ',' ∉ region.toList ∧ '/' ∉ region.toList
  accessKeyId : '\n' ∉ creds.accessKeyId.toList ∧ ',' ∉ creds.accessKeyId.toList ∧ '/' ∉ creds.accessKeyId.toList
  sessionToken : '\n' ∉ creds.sessionToken.toList
  date : (amzDate nowUnix).toList.all isDateChar = true
  long : 8 ≤ (amzDate nowUnix).toList.length

/-- The names that the signature of a chained call covers. -/
def stsSignedNames : List String :=
  ["content-type", "host", "x-amz-content-sha256", "x-amz-date", "x-amz-security-token"]

/-- Pairs whose first parts are in order stand as they are sorted. -/
theorem sortBy_of_firsts {α : Type} [LinearOrder α] {pairs : List (α × String)}
    (firsts : (pairs.map (·.1)).Pairwise (· < ·)) : Sorting.sortBy toLex pairs = pairs := by
  refine List.Pairwise.insertionSort_eq ?_
  rw [List.pairwise_map] at firsts
  exact firsts.imp fun less => Prod.Lex.toLex_le_toLex.mpr (.inl less)

section

variable {hash : SignatureHash} {amzDate : Nat → String} {endpoint : Config.Upstream} {region : String}
  {creds : Credentials} {body : String} {nowUnix : Nat}

theorem visible_of_isDateChar {text : String} (dated : text.toList.all isDateChar = true) :
    ∀ c ∈ text.toList, 32 < c.toNat ∧ c.toNat < 127 := by
  intro c inside
  rcases isDateChar_iff.mp (List.all_eq_true.mp dated c inside) with digit | rfl | rfl
  · exact isDigit_visible digit
  · decide
  · decide

theorem Signable.date_visible (signable : Signable amzDate endpoint region creds nowUnix) :
    ∀ c ∈ (amzDate nowUnix).toList, 32 < c.toNat ∧ c.toNat < 127 := visible_of_isDateChar signable.date

theorem sha256Hex_visible (data : List UInt8) : ∀ c ∈ (sha256Hex hash data).toList, 32 < c.toNat ∧ c.toNat < 127 :=
  Text.hex_forall (by decide) _

/-- The headers that are signed, in order. -/
theorem stsSortedHeaders (signable : Signable amzDate endpoint region creds nowUnix) :
    (stsSignParams hash amzDate endpoint region creds body nowUnix).sortedHeaders =
      [("content-type", formType), ("host", Text.trim (addr endpoint)),
        ("x-amz-content-sha256", sha256Hex hash (Text.utf8Bytes body)), ("x-amz-date", amzDate nowUnix),
        ("x-amz-security-token", Text.trim creds.sessionToken)] := by
  have lower : ∀ name ∈ stsSignedNames, name.toLower = name := by decide +kernel
  simp only [stsSignedNames, List.forall_mem_cons] at lower
  obtain ⟨type, host, payload, date, token, -⟩ := lower
  have formed : Text.trim formType = formType := by decide +kernel
  rw [SignParams.sortedHeaders, stsSignParams]
  simp only [List.map_cons, List.map_nil, type, host, payload, date, token, formed, trim_visible (sha256Hex_visible _),
    trim_visible signable.date_visible]
  refine sortBy_of_firsts ?_
  show stsSignedNames.Pairwise (· < ·)
  decide +kernel

theorem stsSignedHeaders (signable : Signable amzDate endpoint region creds nowUnix) :
    (stsSignParams hash amzDate endpoint region creds body nowUnix).signedHeaders =
      "content-type;host;x-amz-content-sha256;x-amz-date;x-amz-security-token" := by
  rw [SignParams.signedHeaders, stsSortedHeaders signable]
  show String.intercalate ";" stsSignedNames = _
  decide +kernel

/-! #### Its authorization -/

/-- A label and what it labels are left by trimming, when neither end is white space. -/
theorem trim_labelled {label value : List Char} {first last : Char} (head : label.head? = some first)
    (tail : label.getLast? = some last) (front : Text.isWhitespace first = false)
    (middle : Text.isWhitespace last = false)
    (back : ∀ c ∈ value.getLast?, Text.isWhitespace c = false) :
    Text.trim (String.ofList (label ++ value)) = String.ofList (label ++ value) := by
  have filled : label ≠ [] := by
    intro none_
    rw [none_] at head
    cases head
  refine trim_of_ends ?_ ?_
  · intro c own
    rw [String.toList_ofList, List.head?_append_of_ne_nil label filled, head] at own
    exact Option.some.inj own ▸ front
  · intro c own
    rw [String.toList_ofList, List.getLast?_append, tail] at own
    rcases Option.or_eq_some_iff.mp own with values | ⟨-, labels⟩
    · exact back c values
    · exact Option.some.inj labels ▸ middle

/-- The three parts are found, each under its label. -/
theorem read_parts {credential names signature : List Char}
    (credentialEnd : ∀ c ∈ credential.getLast?, Text.isWhitespace c = false)
    (namesEnd : ∀ c ∈ names.getLast?, Text.isWhitespace c = false)
    (signatureEnd : ∀ c ∈ signature.getLast?, Text.isWhitespace c = false) :
    ["Credential=".toList ++ credential, " SignedHeaders=".toList ++ names, " Signature=".toList ++ signature].foldl
      AuthorizationParts.read ⟨none, none, none⟩ = ⟨some credential, some names, some signature⟩ := by
  have blank : ∀ c ∈ [' '], Text.isWhitespace c = true := List.all_eq_true.mp (by decide)
  have first (found : AuthorizationParts) :
      found.read ("Credential=".toList ++ credential) = { found with credential := some credential } := by
    have kept := @trim_labelled "Credential=".toList credential 'C' '=' rfl rfl rfl rfl credentialEnd
    rw [AuthorizationParts.read, kept, String.toList_ofList,
      List.dropPrefix?_append_of_beq credential (beq_self_eq_true _)]
  have second (found : AuthorizationParts) :
      found.read (" SignedHeaders=".toList ++ names) = { found with signedHeaders := some names } := by
    have kept := @trim_labelled "SignedHeaders=".toList names 'S' '=' rfl rfl rfl rfl namesEnd
    have front : " SignedHeaders=".toList ++ names = [' '] ++ ("SignedHeaders=".toList ++ names) := rfl
    have other : ("SignedHeaders=".toList ++ names).dropPrefix? "Credential=".toList = none := rfl
    rw [AuthorizationParts.read, front, trim_blank_append blank, kept, String.toList_ofList, other,
      List.dropPrefix?_append_of_beq names (beq_self_eq_true _)]
  have third (found : AuthorizationParts) :
      found.read (" Signature=".toList ++ signature) = { found with signature := some signature } := by
    have kept := @trim_labelled "Signature=".toList signature 'S' '=' rfl rfl rfl rfl signatureEnd
    have front : " Signature=".toList ++ signature = [' '] ++ ("Signature=".toList ++ signature) := rfl
    have other : ("Signature=".toList ++ signature).dropPrefix? "Credential=".toList = none := rfl
    have otherToo : ("Signature=".toList ++ signature).dropPrefix? "SignedHeaders=".toList = none := rfl
    rw [AuthorizationParts.read, front, trim_blank_append blank, kept, String.toList_ofList, other, otherToo,
      List.dropPrefix?_append_of_beq signature (beq_self_eq_true _)]
  rw [List.foldl_cons, List.foldl_cons, List.foldl_cons, List.foldl_nil, first, second, third]

/-- The parts of a scope, and the access key before them. -/
def credentialParts (accessKeyId date region service : String) : List (List Char) :=
  [accessKeyId.toList, date.toList, region.toList, service.toList, "aws4_request".toList]

/-- An authorization is its three parts, with commas between them. -/
theorem authorization_parts (params : SignParams) (accessKeyId secret : String) :
    (params.authorization hash accessKeyId secret).toList = "AWS4-HMAC-SHA256 ".toList ++ [','].intercalate
      ["Credential=".toList ++ ['/'].intercalate (credentialParts accessKeyId params.date params.region params.service),
        " SignedHeaders=".toList ++ params.signedHeaders.toList,
        " Signature=".toList ++ (params.signature hash secret).toList] := by
  have start : "AWS4-HMAC-SHA256 Credential=".toList = "AWS4-HMAC-SHA256 ".toList ++ "Credential=".toList := by decide
  have tail : "/aws4_request".toList = '/' :: "aws4_request".toList := by decide
  have slash : "/".toList = ['/'] := by decide
  have second : ", SignedHeaders=".toList = ',' :: " SignedHeaders=".toList := by decide
  have third : ", Signature=".toList = ',' :: " Signature=".toList := by decide
  unfold SignParams.authorization SignParams.scope credentialParts
  simp only [String.toList_append, start, tail, slash, second, third, List.intercalate_cons_cons,
    List.intercalate_singleton, List.append_assoc, List.cons_append, List.nil_append]

/-- What stands in a date of the form that the gateway writes. -/
theorem not_mem_date {params : SignParams} (dated : params.timestamp.toList.all isDateChar = true) {c : Char}
    (other : isDateChar c = false) : c ∉ params.date.toList := by
  intro inside
  rw [SignParams.date, String.toList_ofList] at inside
  exact Bool.false_ne_true (other.symm.trans (List.all_eq_true.mp dated c (List.take_subset _ _ inside)))

theorem signature_visible (params : SignParams) (secret : String) :
    ∀ c ∈ (params.signature hash secret).toList, 32 < c.toNat ∧ c.toNat < 127 :=
  Text.hex_forall (by decide) _

/-- The parts that the scope of a chained call is made of can be told apart. -/
theorem credentialParts_plain (signable : Signable amzDate endpoint region creds nowUnix) {c : Char}
    (among : c = '\n' ∨ c = ',' ∨ c = '/') : ∀ part ∈ credentialParts creds.accessKeyId
      (stsSignParams hash amzDate endpoint region creds body nowUnix).date region "sts", c ∉ part := by
  have noDate : isDateChar c = false := by
    rcases among with rfl | rfl | rfl <;> decide
  have noWord : c ∉ "sts".toList ∧ c ∉ "aws4_request".toList := by
    rcases among with rfl | rfl | rfl <;> decide
  have noRegion : c ∉ region.toList := by
    rcases among with rfl | rfl | rfl
    exacts [signable.region.1, signable.region.2.1, signable.region.2.2]
  have noKey : c ∉ creds.accessKeyId.toList := by
    rcases among with rfl | rfl | rfl
    exacts [signable.accessKeyId.1, signable.accessKeyId.2.1, signable.accessKeyId.2.2]
  simp only [credentialParts, List.forall_mem_cons]
  exact ⟨noKey, not_mem_date signable.date noDate, noRegion, noWord.1, noWord.2, List.forall_mem_nil _⟩

/-- An authorization of three parts is read as what the parts are made of. -/
theorem parseAuthorization_parts {auth accessKeyId date region service names signature : String}
    (text : auth.toList = "AWS4-HMAC-SHA256 ".toList ++ [','].intercalate
      ["Credential=".toList ++ ['/'].intercalate (credentialParts accessKeyId date region service),
        " SignedHeaders=".toList ++ names.toList, " Signature=".toList ++ signature.toList])
    (commas : ∀ part ∈ credentialParts accessKeyId date region service, ',' ∉ part)
    (slashes : ∀ part ∈ credentialParts accessKeyId date region service, '/' ∉ part)
    (namesEnd : ∀ c ∈ names.toList.getLast?, Text.isWhitespace c = false) (namesComma : ',' ∉ names.toList)
    (signatureEnd : ∀ c ∈ signature.toList, 32 < c.toNat ∧ c.toNat < 127) (signatureComma : ',' ∉ signature.toList) :
    parseAuthorization auth =
      .ok ⟨accessKeyId, date, region, service, (names.toList.splitOn ';').map String.ofList, signature⟩ := by
  have credential : ',' ∉ ['/'].intercalate (credentialParts accessKeyId date region service) :=
    Records.not_mem_intercalate (by decide) commas
  have split : ([','].intercalate
      ["Credential=".toList ++ ['/'].intercalate (credentialParts accessKeyId date region service),
        " SignedHeaders=".toList ++ names.toList, " Signature=".toList ++ signature.toList]).splitOn ',' =
        ["Credential=".toList ++ ['/'].intercalate (credentialParts accessKeyId date region service),
          " SignedHeaders=".toList ++ names.toList, " Signature=".toList ++ signature.toList] := by
    refine List.splitOn_intercalate ',' (fun part listed => ?_) (List.cons_ne_nil _ _)
    have labels : ',' ∉ "Credential=".toList ∧ ',' ∉ " SignedHeaders=".toList ∧ ',' ∉ " Signature=".toList := by decide
    simp only [List.mem_cons, List.not_mem_nil, or_false] at listed
    rcases listed with rfl | rfl | rfl
    · exact fun inside => (List.mem_append.mp inside).elim labels.1 credential
    · exact fun inside => (List.mem_append.mp inside).elim labels.2.1 namesComma
    · exact fun inside => (List.mem_append.mp inside).elim labels.2.2 signatureComma
  have credentialEnd : ∀ c ∈ (['/'].intercalate (credentialParts accessKeyId date region service)).getLast?,
      Text.isWhitespace c = false := by
    have last : (['/'].intercalate (credentialParts accessKeyId date region service)).getLast? = some 't' := by
      simp only [credentialParts, List.intercalate_cons_cons, List.intercalate_singleton, List.getLast?_append]
      rfl
    rw [last]
    intro c own
    obtain rfl := Option.some.inj own
    decide
  have parts := read_parts credentialEnd namesEnd fun c last => isWhitespace_visible
    (signatureEnd c (List.mem_of_getLast? last))
  have scope : (['/'].intercalate (credentialParts accessKeyId date region service)).splitOn '/' =
      credentialParts accessKeyId date region service :=
    List.splitOn_intercalate '/' slashes (List.cons_ne_nil _ _)
  rw [parseAuthorization, text, List.dropPrefix?_append_of_beq _ (beq_self_eq_true _)]
  simp only [okOr, bind, Except.bind, split, parts, scope]
  simp only [credentialParts, ne_eq, not_true, if_false, String.ofList_toList]

/-- The authorization of a chained call is read as what it was made of. -/
theorem parseAuthorization_chained (signable : Signable amzDate endpoint region creds nowUnix) :
    parseAuthorization ((stsSignParams hash amzDate endpoint region creds body nowUnix).authorization hash
      creds.accessKeyId creds.secretAccessKey) =
      .ok ⟨creds.accessKeyId, (stsSignParams hash amzDate endpoint region creds body nowUnix).date, region, "sts",
        stsSignedNames, (stsSignParams hash amzDate endpoint region creds body nowUnix).signature hash
          creds.secretAccessKey⟩ := by
  have commas := @credentialParts_plain hash amzDate endpoint region creds body nowUnix signable ',' (.inr (.inl rfl))
  have slashes := @credentialParts_plain hash amzDate endpoint region creds body nowUnix signable '/' (.inr (.inr rfl))
  have text := @authorization_parts hash (stsSignParams hash amzDate endpoint region creds body nowUnix)
    creds.accessKeyId creds.secretAccessKey
  have names : (("content-type;host;x-amz-content-sha256;x-amz-date;x-amz-security-token" : String).toList.splitOn
      ';').map String.ofList = stsSignedNames := by decide +kernel
  have last : ("content-type;host;x-amz-content-sha256;x-amz-date;x-amz-security-token" : String).toList.getLast? =
      some 'n' := by decide +kernel
  have noComma : ∀ n < 16, ',' ≠ Text.hexDigit n := by decide
  rw [stsSignedHeaders signable] at text
  have read := parseAuthorization_parts text commas slashes (fun c own => Option.some.inj (last.symm.trans own) ▸ rfl)
    (by decide +kernel) (signature_visible _ _) fun inside => Text.hex_forall noComma _ ',' inside rfl
  rw [read, names]
  rfl

/-! #### Its headers -/

theorem trim_authorization (params : SignParams) (accessKeyId secret : String) :
    Text.trim (params.authorization hash accessKeyId secret) = params.authorization hash accessKeyId secret := by
  have parts : (params.authorization hash accessKeyId secret).toList = ("AWS4-HMAC-SHA256 Credential=".toList ++
      (accessKeyId ++ "/" ++ params.scope ++ ", SignedHeaders=" ++ params.signedHeaders).toList ++
        ", Signature=".toList) ++ (params.signature hash secret).toList := by
    unfold SignParams.authorization
    simp only [String.toList_append, List.append_assoc]
  have front : ("AWS4-HMAC-SHA256 Credential=".toList ++ (accessKeyId ++ "/" ++ params.scope ++ ", SignedHeaders=" ++
      params.signedHeaders).toList ++ ", Signature=".toList).head? = some 'A' := by
    rw [List.append_assoc]
    rfl
  have middle : ("AWS4-HMAC-SHA256 Credential=".toList ++ (accessKeyId ++ "/" ++ params.scope ++ ", SignedHeaders=" ++
      params.signedHeaders).toList ++ ", Signature=".toList).getLast? = some '=' := by
    rw [List.getLast?_append]
    rfl
  have trimmed := @trim_labelled ("AWS4-HMAC-SHA256 Credential=".toList ++ (accessKeyId ++ "/" ++ params.scope ++
    ", SignedHeaders=" ++ params.signedHeaders).toList ++ ", Signature=".toList) (params.signature hash secret).toList
    'A' '=' front middle rfl rfl fun c last =>
      isWhitespace_visible (signature_visible _ _ c (List.mem_of_getLast? last))
  rwa [← parts, String.ofList_toList] at trimmed

/-- The headers of a chained call as they are read. -/
theorem received_chained (signable : Signable amzDate endpoint region creds nowUnix) :
    (sentHeaders endpoint formType body (signStsCall hash amzDate endpoint region creds body nowUnix)).map received =
      [("host", Text.trim (addr endpoint)), ("content-type", formType),
        ("x-amz-content-sha256", sha256Hex hash (Text.utf8Bytes body)), ("x-amz-date", amzDate nowUnix),
        ("x-amz-security-token", Text.trim creds.sessionToken),
        ("authorization", (stsSignParams hash amzDate endpoint region creds body nowUnix).authorization hash
          creds.accessKeyId creds.secretAccessKey),
        ("content-length", Nat.repr (Text.utf8Bytes body).length), ("connection", "close")] := by
  have names : ["Host", "Content-Type", "x-amz-content-sha256", "x-amz-date", "x-amz-security-token", "authorization",
      "Content-Length", "Connection"].map (fun name => (Text.trim name).toLower) =
        ["host", "content-type", "x-amz-content-sha256", "x-amz-date", "x-amz-security-token", "authorization",
          "content-length", "connection"] := by
    decide +kernel
  simp only [List.map_cons, List.map_nil, List.cons.injEq, and_true] at names
  obtain ⟨host, type, payload, date, token, auth, length, connection⟩ := names
  have values : Text.trim formType = formType ∧ Text.trim "close" = "close" := by decide +kernel
  simp only [sentHeaders, signStsCall, List.cons_append, List.nil_append, List.map_cons, List.map_nil, received, host,
    type, payload, date, token, auth, length, connection, values, trim_authorization, trim_visible (repr_visible _)]
  have hashed : Text.trim (sha256Hex hash (Text.utf8Bytes body)) = sha256Hex hash (Text.utf8Bytes body) :=
    trim_visible (sha256Hex_visible _)
  have dated : Text.trim (amzDate nowUnix) = amzDate nowUnix := trim_visible signable.date_visible
  rw [stsSignParams]
  simp only [hashed, dated]

theorem newline_of_visible {text : String} (visible : ∀ c ∈ text.toList, 32 < c.toNat ∧ c.toNat < 127) :
    '\n' ∉ text.toList := by
  intro inside
  have above := (visible _ inside).1
  revert above
  decide

/-- Every header of a chained call can be read. -/
theorem sentHeaders_plain (signable : Signable amzDate endpoint region creds nowUnix) :
    ∀ header ∈ sentHeaders endpoint formType body (signStsCall hash amzDate endpoint region creds body nowUnix),
      PlainHeader header := by
  have names : ∀ name ∈ ["Host", "Content-Type", "x-amz-content-sha256", "x-amz-date", "x-amz-security-token",
      "authorization", "Content-Length", "Connection"], ':' ∉ name.toList ∧ '\n' ∉ name.toList := by
    decide +kernel
  simp only [List.forall_mem_cons] at names
  obtain ⟨host, type, payload, date, token, auth, length, connection, -⟩ := names
  have address : '\n' ∉ (addr endpoint).toList := by
    simp only [addr, String.toList_append, List.mem_append, not_or]
    exact ⟨⟨signable.host, by decide⟩, newline_of_visible (repr_visible _)⟩
  have formed : '\n' ∉ formType.toList ∧ '\n' ∉ "close".toList := by decide +kernel
  have authorization : '\n' ∉ ((stsSignParams hash amzDate endpoint region creds body nowUnix).authorization hash
      creds.accessKeyId creds.secretAccessKey).toList := by
    have credential := @credentialParts_plain hash amzDate endpoint region creds body nowUnix signable '\n' (.inl rfl)
    have labels : '\n' ∉ "Credential=".toList ∧ '\n' ∉ " SignedHeaders=".toList ∧ '\n' ∉ " Signature=".toList := by
      decide
    have listed : '\n' ∉ "content-type;host;x-amz-content-sha256;x-amz-date;x-amz-security-token".toList := by
      decide +kernel
    rw [authorization_parts, stsSignedHeaders signable, List.mem_append, not_or]
    refine ⟨by decide, Records.not_mem_intercalate (by decide) ?_⟩
    simp only [List.forall_mem_cons, List.mem_append, not_or]
    exact ⟨⟨labels.1, Records.not_mem_intercalate (by decide) credential⟩, ⟨labels.2.1, listed⟩,
      ⟨labels.2.2, newline_of_visible (signature_visible _ _)⟩, List.forall_mem_nil _⟩
  simp only [sentHeaders, signStsCall, List.cons_append, List.nil_append, List.forall_mem_cons]
  exact ⟨⟨host.1, host.2, address⟩, ⟨type.1, type.2, formed.1⟩,
    ⟨payload.1, payload.2, newline_of_visible (sha256Hex_visible _)⟩,
    ⟨date.1, date.2, newline_of_visible signable.date_visible⟩, ⟨token.1, token.2, signable.sessionToken⟩,
    ⟨auth.1, auth.2, authorization⟩, ⟨length.1, length.2, newline_of_visible (repr_visible _)⟩,
    ⟨connection.1, connection.2, formed.2⟩, List.forall_mem_nil _⟩

/-! ### Acceptance -/

/-- What the server reads of a chained call: its headers, and its body. -/
theorem readRequest_chained (signable : Signable amzDate endpoint region creds nowUnix)
    (small : (Text.utf8Bytes body).length < 2 ^ 64) :
    readRequest (chainedCall hash amzDate endpoint region creds body nowUnix) =
      .ok ((sentHeaders endpoint formType body (signStsCall hash amzDate endpoint region creds body nowUnix)).map
        received, Text.utf8Bytes body) := by
  have single : '\n' ∉ "/".toList := by decide
  rw [chainedCall, httpPostFormRequest]
  exact readRequest_post single (sentHeaders_plain signable) small

/-- The signature over headers as they are sorted is the signature over the headers. -/
theorem signature_again (params : SignParams) (secret : String) :
    { params with headers := params.sortedHeaders }.signature hash secret = params.signature hash secret := by
  have again : { params with headers := params.sortedHeaders }.sortedHeaders = params.sortedHeaders :=
    SignParams.sortedHeaders_again rfl
  unfold SignParams.signature SignParams.stringToSign SignParams.canonicalRequest SignParams.signedHeaders
  rw [again]
  rfl

/-- The server accepts the headers of a chained call with the bodies that have the hash of its body, where the secret
    that it computes gives the signature. -/
theorem verifyChainSignature_iff (signable : Signable amzDate endpoint region creds nowUnix) (other : List UInt8) :
    verifyChainSignature hash ((sentHeaders endpoint formType body
      (signStsCall hash amzDate endpoint region creds body nowUnix)).map received) other = .ok () ↔
        hash.sha256 other = hash.sha256 (Text.utf8Bytes body) ∧
          (stsSignParams hash amzDate endpoint region creds body nowUnix).signature hash
              (secretFor hash creds.accessKeyId) =
            (stsSignParams hash amzDate endpoint region creds body nowUnix).signature hash creds.secretAccessKey := by
  rw [received_chained signable]
  generalize listed : [("host", Text.trim (addr endpoint)), _, _, _, _, _, _, _] = headers
  have auth : headers.lookup "authorization" = some ((stsSignParams hash amzDate endpoint region creds body
      nowUnix).authorization hash creds.accessKeyId creds.secretAccessKey) := by rw [← listed]; rfl
  have payload : headers.lookup "x-amz-content-sha256" = some (sha256Hex hash (Text.utf8Bytes body)) := by
    rw [← listed]
    rfl
  have dated : headers.lookup "x-amz-date" = some (amzDate nowUnix) := by
    rw [← listed]
    rfl
  have signed : stsSignedNames.mapM (fun name => (okOr (headers.lookup name) ("signed header " ++ Text.debugStr name ++
      " missing")).map fun value => (name, value)) =
        .ok (stsSignParams hash amzDate endpoint region creds body nowUnix).sortedHeaders := by
    rw [← listed, stsSortedHeaders signable]
    rfl
  have again : (⟨"POST", "/", "", region, "sts", (stsSignParams hash amzDate endpoint region creds body
      nowUnix).sortedHeaders, sha256Hex hash (Text.utf8Bytes body), amzDate nowUnix⟩ : SignParams).signature hash
        (secretFor hash creds.accessKeyId) = (stsSignParams hash amzDate endpoint region creds body nowUnix).signature
          hash (secretFor hash creds.accessKeyId) :=
    signature_again (stsSignParams hash amzDate endpoint region creds body nowUnix) (secretFor hash creds.accessKeyId)
  have same : sha256Hex hash (Text.utf8Bytes body) = sha256Hex hash other ↔
      hash.sha256 other = hash.sha256 (Text.utf8Bytes body) :=
    ⟨fun texts => (Text.hex_injective texts).symm, fun hashes => congrArg Text.hex hashes.symm⟩
  unfold verifyChainSignature
  simp only [auth, payload, dated, okOr_some, bind, Except.bind, parseAuthorization_chained signable, ne_eq, same,
    not_true, if_false, signed, again]
  by_cases hashed : hash.sha256 other = hash.sha256 (Text.utf8Bytes body)
  · by_cases secrets : (stsSignParams hash amzDate endpoint region creds body nowUnix).signature hash
        (secretFor hash creds.accessKeyId) =
          (stsSignParams hash amzDate endpoint region creds body nowUnix).signature hash creds.secretAccessKey
    · simp [hashed, secrets]
    · simp [hashed, secrets]
  · simp [hashed]

end

/-- Credentials that the server has issued. -/
def issuedCreds : Credentials := ⟨"ASIAMOCK0001", secretFor sha256Hash "ASIAMOCK0001", "e30", 1000003600⟩

end SmallGateway.Aws
