import SmallGateway.Adapters
import SmallGateway.ChainedCall
import SmallGateway.Lib.Base64
import SmallGateway.Lib.Patterns
import SmallGateway.StreamHandler

/-!
The mock STS (`gatewayd/src/bin/mock_sts.rs`, and `mock` in `gateway-core/src/aws.rs`), and what the gateway reads of
its answers (the second half of `http_post` and `sts_error_code` in `gatewayd/src/aws_auth.rs`,
`parse_assume_role_response` in `gateway-core/src/aws.rs`). Both calls of the gateway are read as they were meant
(`handle_webIdentity`, `handle_assumeRole`), and the credentials of an answer are those that were written into it
(`answered_respond`). The JSON library and the texts of dates are parameters.
-/

namespace SmallGateway.Aws

open Json (Value)
open Patterns (cut?)

/-! ### Answers -/

/-- The status and the payload of an answer (the second half of `http_post`). -/
def httpPostResponse (response : List UInt8) : Except String (Nat × String) :=
  let text := (Text.fromUtf8Lossy response).toList
  let status := ((splitWhitespace text)[1]?.bind fun word => Text.parseU64 (String.ofList word)).filter (· < 2 ^ 16)
  match status with
  | none => .error ("malformed STS response: " ++ String.ofList (text.take 80))
  | some status => .ok (status, String.ofList (((cut? "\r\n\r\n".toList text).map (·.2)).getD []))

/-- The text between two tags. -/
def xmlField (xml name : String) : Except String String := do
  let (_, rest) ← okOr (cut? ("<" ++ name ++ ">").toList xml.toList) ("STS response has no <" ++ name ++ ">")
  let (value, _) ← okOr (cut? ("</" ++ name ++ ">").toList rest) ("STS response has unterminated <" ++ name ++ ">")
  .ok (String.ofList value)

/-- The code of an error. -/
def stsErrorCode (body : String) : Option String := do
  let (_, rest) ← cut? "<Code>".toList body.toList
  let (code, _) ← cut? "</Code>".toList rest
  let code := Text.trim (String.ofList code)
  if code ≠ "" ∧ Text.byteLen code.toList ≤ 64 then some code else none

def parseAssumeRoleResponse (parseRfc3339 : String → Except String Int) (xml : String) : Except String Credentials := do
  let accessKeyId ← xmlField xml "AccessKeyId"
  let secretAccessKey ← xmlField xml "SecretAccessKey"
  let sessionToken ← xmlField xml "SessionToken"
  let expiration ← xmlField xml "Expiration"
  match parseRfc3339 expiration with
  | .error e => .error ("STS Expiration " ++ Text.debugStr expiration ++ " is not RFC3339: " ++ e)
  | .ok time => .ok ⟨accessKeyId, secretAccessKey, sessionToken, time.toNat⟩

/-- What the connection has brought: the bytes of an answer, or how it failed. -/
abbrev Reply := Except String (List UInt8)

/-- The credentials of an answer. -/
def answered (parseRfc3339 : String → Except String Int) (what : String) (reply : Reply) :
    Except String Credentials := do
  let response ← reply
  let (status, payload) ← httpPostResponse response
  if status ≠ 200 then
    .error (what ++ " returned " ++ Nat.repr status ++ " code=" ++ (stsErrorCode payload).getD "unknown" ++ ": " ++
      String.ofList (payload.toList.take 200))
  else parseAssumeRoleResponse parseRfc3339 payload

/-! ### The server -/

/-- The number of the mock STS, with four digits at least, behind the prefix of its access keys. -/
def mockAccessKeyId (n : Nat) : String :=
  "ASIAMOCK" ++ String.ofList (List.replicate (4 - (Nat.repr n).toList.length) '0' ++ (Nat.repr n).toList)

/-- The tags as a map. -/
def tagMap (tags : List (String × String)) : Named String := tags.foldl (fun map (k, v) => map.insert k v) ∅

/-- What the token of a session holds. -/
def tokenValue (tags : List (String × String)) : Value :=
  .object [("tags", .object ((tagMap tags).toList.map fun (k, v) => (k, .string v)))]

def sessionToken (json : JsonText) (tags : List (String × String)) : String :=
  String.ofList (Base64.encode Base64.urlSafe (json.toVec (tokenValue tags)))

/-- The tags of a token, nothing when it is none. -/
def decodeSessionToken (json : JsonText) (token : String) : Option (List (String × String)) := do
  let bytes ← Base64.decode Base64.urlSafe token.toList
  let v ← (json.fromSlice bytes).toOption
  match v.get "tags" with
  | .object tags => some (tags.map fun (k, v) => (k, v.asStr.getD ""))
  | _ => none

/-- What a form holds. The mock keeps the role and the name of the session for its own log only. -/
structure Form where
  action : String
  webIdentityToken : String
  durationSecs : Nat
  tagKeys : List (Nat × String)
  tagValues : List (Nat × String)

namespace Form

def new : Form := ⟨"", "", 900, [], []⟩

/-- One half of a tag under its number. -/
def readTag (form : Form) (name value : String) : Form :=
  match (name.toList.dropPrefix? "Tags.member.".toList).bind (Text.splitOnce '.') with
  | none => form
  | some (n, field) =>
    match Text.parseU64 (String.ofList n) with
    | none => form
    | some n =>
      match String.ofList field with
      | "Key" => { form with tagKeys := form.tagKeys ++ [(n, value)] }
      | "Value" => { form with tagValues := form.tagValues ++ [(n, value)] }
      | _ => form

def read (form : Form) (pair : String × String) : Form :=
  match pair.1 with
  | "Action" => { form with action := pair.2 }
  | "WebIdentityToken" => { form with webIdentityToken := pair.2 }
  | "DurationSeconds" => { form with durationSecs := (Text.parseU64 pair.2).getD 900 }
  | name => form.readTag name pair.2

/-- The tags in the order of their numbers. -/
def tags (form : Form) : List (String × String) :=
  ((Sorting.sortBy toLex form.tagKeys).zip (Sorting.sortBy toLex form.tagValues)).map fun ((_, k), (_, v)) => (k, v)

end Form

structure MockSts where
  hash : SignatureHash
  json : JsonText
  rfc3339 : Nat → String
  requireSignedChain : Bool

namespace MockSts

variable (server : MockSts)

/-- The text of an answer. -/
def answerText (status : Nat) (reason body : String) : String :=
  "HTTP/1.1 " ++ Nat.repr status ++ " " ++ reason ++ "\r\nContent-Type: text/xml\r\nContent-Length: " ++
    Nat.repr (Text.utf8Bytes body).length ++ "\r\nConnection: close\r\n\r\n" ++ body

def respond (status : Nat) (body : String) : List UInt8 :=
  Text.utf8Bytes (answerText status (if status = 200 then "OK" else if status = 403 then "Forbidden" else "Bad Request")
    body)

def errorXml (message : String) : String := "<Error><Message>" ++ message ++ "</Message></Error>"

/-- A value between its tags. -/
def element (name value : String) : String := "<" ++ name ++ ">" ++ value ++ "</" ++ name ++ ">"

/-- The credentials of a number, as they are written for an action. -/
def credentialsXml (action : String) (n : Nat) (tags : List (String × String)) (expirationUnix : Nat) : String :=
  "<" ++ action ++ "Response><" ++ action ++ "Result><Credentials>" ++
    (element "AccessKeyId" (mockAccessKeyId n) ++
      (element "SecretAccessKey" (secretFor server.hash (mockAccessKeyId n)) ++
        (element "SessionToken" (sessionToken server.json tags) ++
          (element "Expiration" (server.rfc3339 expirationUnix) ++
            ("</Credentials></" ++ action ++ "Result></" ++ action ++ "Response>")))))

/-- The answer to a form, and how many credentials have been issued then. -/
def answer (headers : List (String × String)) (body : List UInt8) (form : Form) (issued nowUnix : Nat) :
    List UInt8 × Nat :=
  if form.action = "AssumeRoleWithWebIdentity" then
    if form.webIdentityToken = "" then (respond 400 (errorXml "WebIdentityToken is required"), issued)
    else (respond 200 (server.credentialsXml form.action (issued + 1) [] (nowUnix + form.durationSecs)), issued + 1)
  else if form.action = "AssumeRole" then
    match if server.requireSignedChain then verifyChainSignature server.hash headers body else .ok () with
    | .error e => (respond 403 (errorXml e), issued)
    | .ok () => (respond 200 (server.credentialsXml form.action (issued + 1) form.tags (nowUnix + form.durationSecs)),
        issued + 1)
  else (respond 400 (errorXml ("unsupported Action " ++ Text.debugStr form.action)), issued)

/-- What a connection is answered, nothing when it ends without an answer. -/
def handle (bytes : List UInt8) (issued nowUnix : Nat) : List UInt8 × Nat :=
  match readRequest bytes with
  | .error _ => ([], issued)
  | .ok (headers, body) =>
    match mockPairs (Text.fromUtf8Lossy body) with
    | none => ([], issued)
    | some pairs => server.answer headers body (pairs.foldl Form.read .new) issued nowUnix

/-! ### What a request finds in an answer -/

theorem splitWhitespace_second {first second rest : List Char} (word : ∀ c ∈ first, Text.isWhitespace c = false)
    (wordToo : ∀ c ∈ second, Text.isWhitespace c = false) (some_ : first ≠ []) (someToo : second ≠ []) :
    (splitWhitespace (first ++ ' ' :: (second ++ ' ' :: rest)))[1]? = some second := by
  have blank : Text.isWhitespace ' ' = true := by decide
  rw [splitWhitespace, List.splitOnP_append_cons_of_forall_mem word _ blank,
    List.splitOnP_append_cons_of_forall_mem wordToo _ blank]
  simp [some_, someToo]

theorem repr_clear (n : Nat) : Patterns.clear "\r\n\r\n".toList (Nat.repr n).toList = true := by
  have pattern : "\r\n\r\n".toList = ['\r', '\n', '\r', '\n'] := by decide
  rw [pattern]
  exact Patterns.clear_of_not_mem (Text.not_mem_repr (by decide) n)

theorem answerText_word (status : Nat) (reason body : String) :
    (splitWhitespace (answerText status reason body).toList)[1]? = some (Nat.repr status).toList := by
  have version : "HTTP/1.1 ".toList = "HTTP/1.1".toList ++ [' '] := by decide
  have blank : " ".toList = [' '] := by decide
  have words : (answerText status reason body).toList = "HTTP/1.1".toList ++ ' ' :: ((Nat.repr status).toList ++
      ' ' :: (reason ++ "\r\nContent-Type: text/xml\r\nContent-Length: " ++ Nat.repr (Text.utf8Bytes body).length ++
        "\r\nConnection: close\r\n\r\n" ++ body).toList) := by
    simp only [answerText, version, blank, String.toList_append, List.append_assoc, List.cons_append, List.nil_append]
  have word : "HTTP/1.1".toList.all (fun c => !Text.isWhitespace c) = true := by decide
  rw [words]
  exact splitWhitespace_second (fun c inside => by simpa using List.all_eq_true.mp word c inside)
    (fun c inside => isWhitespace_visible (repr_visible status c inside)) (by decide)
    (by simp [Nat.toList_repr, Nat.toDigits_ne_nil])

theorem answerText_cut (status : Nat) {reason : String} (body : String)
    (clears : Patterns.clear "\r\n\r\n".toList (" " ++ reason ++
      "\r\nContent-Type: text/xml\r\nContent-Length: ").toList = true) :
    (Patterns.cut? "\r\n\r\n".toList (answerText status reason body).toList).map (·.2) = some body.toList := by
  have close : "\r\nConnection: close\r\n\r\n" = "\r\nConnection: close" ++ "\r\n\r\n" := by decide
  have parts : (answerText status reason body).toList = ("HTTP/1.1 ".toList ++ ((Nat.repr status).toList ++ ((" " ++
      reason ++ "\r\nContent-Type: text/xml\r\nContent-Length: ").toList ++
        ((Nat.repr (Text.utf8Bytes body).length).toList ++ "\r\nConnection: close".toList)))) ++
          ("\r\n\r\n".toList ++ body.toList) := by
    simp only [answerText, close, String.toList_append, List.append_assoc]
  have version : Patterns.clear "\r\n\r\n".toList "HTTP/1.1 ".toList = true := by decide
  have closes : Patterns.clear "\r\n\r\n".toList "\r\nConnection: close".toList = true := by decide
  have head := Patterns.clear_append version (Patterns.clear_append (repr_clear status)
    (Patterns.clear_append clears (Patterns.clear_append (repr_clear (Text.utf8Bytes body).length) closes)))
  rw [parts, Patterns.cut?_part head, Option.map_some]

/-- An answer is read as it was meant. -/
theorem httpPostResponse_respond {status : Nat} (small : status < 2 ^ 16) (body : String) :
    httpPostResponse (respond status body) = .ok (status, body) := by
  obtain ⟨reason, among, meant⟩ : ∃ reason ∈ ["OK", "Forbidden", "Bad Request"],
      respond status body = Text.utf8Bytes (answerText status reason body) := by
    refine ⟨_, ?_, rfl⟩
    split_ifs <;> simp
  have clears : Patterns.clear "\r\n\r\n".toList (" " ++ reason ++
      "\r\nContent-Type: text/xml\r\nContent-Length: ").toList = true := by
    simp only [List.mem_cons, List.not_mem_nil, or_false] at among
    simp only [String.toList_append]
    rcases among with rfl | rfl | rfl <;> decide +kernel
  unfold httpPostResponse
  simp only [meant, Text.fromUtf8Lossy_utf8Bytes, answerText_word, answerText_cut status body clears, Option.bind_some,
    String.ofList_toList, parseU64_repr (show status < 2 ^ 64 by omega), Option.filter, Option.getD_some, small,
    decide_true, if_true]

/-- The text between two tags is found behind what does not have the first of them. -/
theorem xmlField_of_parts {xml name value : String} {before after : List Char}
    (parts : xml.toList = before ++ ((element name value).toList ++ after))
    (clears : Patterns.clear ("<" ++ name ++ ">").toList before = true) (plain : '<' ∉ value.toList) :
    xmlField xml name = .ok value := by
  have closing : ("</" ++ name ++ ">").toList = '<' :: ('/' :: name.toList ++ ['>']) := by
    simp [String.toList_append]
  have valueClears : Patterns.clear ("</" ++ name ++ ">").toList value.toList = true := by
    rw [closing]
    exact Patterns.clear_of_not_mem plain
  have whole : (element name value).toList ++ after = ("<" ++ name ++ ">").toList ++
      (value.toList ++ (("</" ++ name ++ ">").toList ++ after)) := by
    simp only [element, String.toList_append, List.append_assoc]
  unfold xmlField
  rw [parts, whole, Patterns.cut?_part clears]
  simp only [okOr_some, bind, Except.bind]
  rw [Patterns.cut?_part valueClears]
  simp only [okOr_some, String.ofList_toList]

def fieldNames : List String := ["AccessKeyId", "SecretAccessKey", "SessionToken", "Expiration"]

/-- No field begins before the first. -/
theorem head_clear {action name : String} (known : action ∈ ["AssumeRole", "AssumeRoleWithWebIdentity"])
    (field : name ∈ fieldNames) : Patterns.clear ("<" ++ name ++ ">").toList
      ("<" ++ action ++ "Response><" ++ action ++ "Result><Credentials>").toList = true := by
  simp only [fieldNames, List.mem_cons, List.not_mem_nil, or_false] at known field
  simp only [String.toList_append]
  rcases known with rfl | rfl <;> rcases field with rfl | rfl | rfl | rfl <;> decide +kernel

/-- No field begins within another. -/
theorem element_clear {name other value : String} (field : name ∈ fieldNames) (fieldToo : other ∈ fieldNames)
    (different : name ≠ other) (plain : '<' ∉ value.toList) :
    Patterns.clear ("<" ++ name ++ ">").toList (element other value).toList = true := by
  have opening : ("<" ++ name ++ ">").toList = '<' :: (name.toList ++ ['>']) := by simp [String.toList_append]
  have valueClears : Patterns.clear ("<" ++ name ++ ">").toList value.toList = true := by
    rw [opening]
    exact Patterns.clear_of_not_mem plain
  have tags : Patterns.clear ("<" ++ name ++ ">").toList ("<" ++ other ++ ">").toList = true ∧
      Patterns.clear ("<" ++ name ++ ">").toList ("</" ++ other ++ ">").toList = true := by
    simp only [fieldNames, List.mem_cons, List.not_mem_nil, or_false] at field fieldToo
    simp only [String.toList_append]
    rcases field with rfl | rfl | rfl | rfl <;> rcases fieldToo with rfl | rfl | rfl | rfl <;>
      first | exact absurd rfl different | exact ⟨by decide +kernel, by decide +kernel⟩
  have whole : (element other value).toList = ("<" ++ other ++ ">").toList ++
      (value.toList ++ ("</" ++ other ++ ">").toList) := by
    simp only [element, String.toList_append, List.append_assoc]
  rw [whole]
  exact Patterns.clear_append tags.1 (Patterns.clear_append valueClears tags.2)

theorem mockAccessKeyId_chars (n : Nat) :
    ∀ c ∈ (mockAccessKeyId n).toList, c ∈ "ASIAMOCK".toList ∨ c.isDigit = true := by
  intro c inside
  rw [mockAccessKeyId, String.toList_append, List.mem_append] at inside
  rcases inside with fixed | number
  · exact .inl fixed
  · rw [String.toList_ofList, List.mem_append] at number
    rcases number with zero | digit
    · exact .inr ((List.eq_of_mem_replicate zero) ▸ rfl)
    · exact .inr (Text.isDigit_of_mem_repr digit)

/-- No two numbers have one access key. -/
theorem mockAccessKeyId_injective : Function.Injective mockAccessKeyId := by
  intro n m same
  have value (k : Nat) :
      Nat.ofDigitChars 10 (List.replicate (4 - (Nat.repr k).toList.length) '0' ++ (Nat.repr k).toList) 0 = k := by
    rw [Nat.ofDigitChars_append, Nat.ofDigitChars_replicate_zero, Nat.mul_zero, Nat.toList_repr,
      Nat.ofDigitChars_ten_toDigits]
  have texts := congrArg String.toList same
  rw [mockAccessKeyId, mockAccessKeyId, String.toList_append, String.toList_append] at texts
  have numbers := String.ofList_injective (String.toList_inj.mp (List.append_cancel_left texts))
  rw [← value n, numbers, value m]

theorem not_mem_mockAccessKeyId {c : Char} (other : c ∉ "ASIAMOCK".toList) (noDigit : c.isDigit = false) (n : Nat) :
    c ∉ (mockAccessKeyId n).toList := by
  intro inside
  rcases mockAccessKeyId_chars n c inside with fixed | digit
  · exact other fixed
  · exact Bool.false_ne_true (noDigit.symm.trans digit)

theorem not_mem_sessionToken {c : Char} (other : c ∉ Base64.urlSafe.symbols) (json : JsonText)
    (tags : List (String × String)) : c ∉ (sessionToken json tags).toList := by
  rw [sessionToken, String.toList_ofList]
  exact fun inside => other (Base64.encode_mem _ c inside)

/-- The credentials of a number. -/
def mockCreds (n : Nat) (tags : List (String × String)) (expirationUnix : Nat) : Credentials :=
  ⟨mockAccessKeyId n, secretFor server.hash (mockAccessKeyId n), sessionToken server.json tags, expirationUnix⟩

variable {server} {parseRfc3339 : String → Except String Int} {action : String} {expirationUnix : Nat}

/-- The credentials are found as they were written. -/
theorem parse_credentialsXml (known : action ∈ ["AssumeRole", "AssumeRoleWithWebIdentity"]) (n : Nat)
    (tags : List (String × String)) (plain : '<' ∉ (server.rfc3339 expirationUnix).toList)
    (parses : parseRfc3339 (server.rfc3339 expirationUnix) = .ok expirationUnix) :
    parseAssumeRoleResponse parseRfc3339 (server.credentialsXml action n tags expirationUnix) =
      .ok (server.mockCreds n tags expirationUnix) := by
  have plainKey : '<' ∉ (mockAccessKeyId n).toList := not_mem_mockAccessKeyId (by decide) (by decide) n
  have plainSecret : '<' ∉ (secretFor server.hash (mockAccessKeyId n)).toList := fun inside =>
    @Text.hex_forall (· ≠ '<') (by decide) _ _ inside rfl
  have plainToken : '<' ∉ (sessionToken server.json tags).toList := not_mem_sessionToken (by decide) _ _
  obtain ⟨rest, whole⟩ : ∃ rest, (server.credentialsXml action n tags expirationUnix).toList =
      ("<" ++ action ++ "Response><" ++ action ++ "Result><Credentials>").toList ++
        ((element "AccessKeyId" (mockAccessKeyId n)).toList ++
          ((element "SecretAccessKey" (secretFor server.hash (mockAccessKeyId n))).toList ++
            ((element "SessionToken" (sessionToken server.json tags)).toList ++
              ((element "Expiration" (server.rfc3339 expirationUnix)).toList ++ rest)))) :=
    ⟨("</Credentials></" ++ action ++ "Result></" ++ action ++ "Response>").toList, by
      simp only [credentialsXml, String.toList_append]⟩
  have head {name : String} (field : name ∈ fieldNames) := head_clear known field
  have keyClears {name : String} (field : name ∈ fieldNames) (different : name ≠ "AccessKeyId") :=
    element_clear field (show "AccessKeyId" ∈ fieldNames by decide) different plainKey
  have secretClears {name : String} (field : name ∈ fieldNames) (different : name ≠ "SecretAccessKey") :=
    element_clear field (show "SecretAccessKey" ∈ fieldNames by decide) different plainSecret
  have tokenClears {name : String} (field : name ∈ fieldNames) (different : name ≠ "SessionToken") :=
    element_clear field (show "SessionToken" ∈ fieldNames by decide) different plainToken
  have key : xmlField (server.credentialsXml action n tags expirationUnix) "AccessKeyId" = .ok (mockAccessKeyId n) :=
    xmlField_of_parts whole (head (by decide)) plainKey
  have secret : xmlField (server.credentialsXml action n tags expirationUnix) "SecretAccessKey" =
      .ok (secretFor server.hash (mockAccessKeyId n)) := by
    refine xmlField_of_parts (whole.trans (List.append_assoc _ _ _).symm) ?_ plainSecret
    exact Patterns.clear_append (head (by decide)) (keyClears (by decide) (by decide))
  have token : xmlField (server.credentialsXml action n tags expirationUnix) "SessionToken" =
      .ok (sessionToken server.json tags) := by
    have field : "SessionToken" ∈ fieldNames := by decide
    have clears := Patterns.clear_append (head field) (Patterns.clear_append (keyClears field (by decide))
      (secretClears field (by decide)))
    refine @xmlField_of_parts _ _ _ _ ((element "Expiration" (server.rfc3339 expirationUnix)).toList ++ rest)
      (whole.trans ?_) clears plainToken
    simp only [List.append_assoc]
  have expiration : xmlField (server.credentialsXml action n tags expirationUnix) "Expiration" =
      .ok (server.rfc3339 expirationUnix) := by
    have field : "Expiration" ∈ fieldNames := by decide
    have clears := Patterns.clear_append (head field) (Patterns.clear_append (keyClears field (by decide))
      (Patterns.clear_append (secretClears field (by decide)) (tokenClears field (by decide))))
    refine @xmlField_of_parts _ _ _ _ rest (whole.trans ?_) clears plain
    simp only [List.append_assoc]
  unfold parseAssumeRoleResponse
  simp only [key, secret, token, expiration, bind, Except.bind, parses, mockCreds, Int.toNat_natCast]

/-- The credentials of an answer are those that were written into it. -/
theorem answered_respond (known : action ∈ ["AssumeRole", "AssumeRoleWithWebIdentity"]) (n : Nat)
    (tags : List (String × String)) (plain : '<' ∉ (server.rfc3339 expirationUnix).toList)
    (parses : parseRfc3339 (server.rfc3339 expirationUnix) = .ok expirationUnix) (what : String) :
    answered parseRfc3339 what (.ok (respond 200 (server.credentialsXml action n tags expirationUnix))) =
      .ok (server.mockCreds n tags expirationUnix) := by
  unfold answered
  simp only [bind, Except.bind, httpPostResponse_respond (show 200 < 2 ^ 16 by decide), ne_eq, not_true, if_false,
    parse_credentialsXml known n tags plain parses]

/-! ### What the server reads -/

theorem tagName_toList (n : Nat) (field : String) : (tagName n field).toList =
    "Tags.member.".toList ++ ((Nat.repr n).toList ++ '.' :: field.toList) := by
  have dot : ".".toList = ['.'] := by decide
  simp only [tagName, dot, String.toList_append, List.append_assoc, List.singleton_append]

/-- The parameters of the tags are no other parameters. -/
theorem read_tagName (form : Form) (n : Nat) (field value : String) :
    form.read (tagName n field, value) = form.readTag (tagName n field) value := by
  have head : (tagName n field).toList.head? = some 'T' := by
    rw [tagName_toList]
    rfl
  have other {name : String} (odd : name.toList.head? ≠ some 'T') : tagName n field ≠ name :=
    fun same => odd (same ▸ head)
  unfold Form.read
  split
  · rename_i same
    exact absurd same (other (by decide))
  · rename_i same
    exact absurd same (other (by decide))
  · rename_i same
    exact absurd same (other (by decide))
  · rfl

theorem readTag_tagName (form : Form) {n : Nat} (small : n < 2 ^ 64) (value : String) :
    form.readTag (tagName n "Key") value = { form with tagKeys := form.tagKeys ++ [(n, value)] } ∧
      form.readTag (tagName n "Value") value = { form with tagValues := form.tagValues ++ [(n, value)] } := by
  have found (field : String) : ((tagName n field).toList.dropPrefix? "Tags.member.".toList).bind (Text.splitOnce '.') =
      some ((Nat.repr n).toList, field.toList) := by
    rw [tagName_toList, List.dropPrefix?_append_of_beq _ (beq_self_eq_true _), Option.bind_some]
    exact Text.splitOnce_append (Text.not_mem_repr (by decide) n) _
  constructor
  · unfold Form.readTag
    simp only [found, String.ofList_toList, parseU64_repr small]
  · unfold Form.readTag
    simp only [found, String.ofList_toList, parseU64_repr small]

/-- The tags of a form are read under their numbers. -/
theorem foldl_tagFields (tags : List (String × String)) (form : Form) (start : Nat)
    (small : start + tags.length ≤ 2 ^ 64) :
    ((tags.zipIdx start).flatMap tagFields).foldl Form.read form =
      { form with
        tagKeys := form.tagKeys ++ (tags.zipIdx start).map fun ((key, _), n) => (n, key)
        tagValues := form.tagValues ++ (tags.zipIdx start).map fun ((_, value), n) => (n, value) } := by
  induction tags generalizing form start with
  | nil => simp
  | cons tag rest ih =>
    have inside : start < 2 ^ 64 := by simp only [List.length_cons] at small; omega
    have more : start + 1 + rest.length ≤ 2 ^ 64 := by simp only [List.length_cons] at small; omega
    rw [List.zipIdx_cons, List.flatMap_cons, List.foldl_append, tagFields, List.foldl_cons, List.foldl_cons,
      List.foldl_nil, read_tagName, read_tagName, (readTag_tagName form inside tag.1).1,
      (readTag_tagName _ inside tag.2).2, ih _ _ more]
    simp only [List.map_cons, List.append_assoc, List.singleton_append]

/-- The mock STS has no use for the other parameters. -/
theorem read_unused (form : Form) {name : String} (unused : name ∈ ["Version", "RoleArn", "RoleSessionName"])
    (value : String) : form.read (name, value) = form := by
  have noTag : name.toList.dropPrefix? "Tags.member.".toList = none := by
    simp only [List.mem_cons, List.not_mem_nil, or_false] at unused
    rcases unused with rfl | rfl | rfl <;> decide
  have other {used : String} (odd : used ∉ ["Version", "RoleArn", "RoleSessionName"]) : name ≠ used :=
    fun same => odd (same ▸ unused)
  unfold Form.read
  split
  · rename_i same
    exact absurd same (other (by decide))
  · rename_i same
    exact absurd same (other (by decide))
  · rename_i same
    exact absurd same (other (by decide))
  · show form.readTag name value = form
    unfold Form.readTag
    rw [noTag, Option.bind_none]

theorem read_duration (form : Form) (durationSecs : UInt32) :
    form.read ("DurationSeconds", Nat.repr durationSecs.toNat) = { form with durationSecs := durationSecs.toNat } := by
  have duration : Text.parseU64 (Nat.repr durationSecs.toNat) = some durationSecs.toNat :=
    parseU64_repr (Nat.lt_trans durationSecs.toNat_lt (by decide))
  simp only [Form.read, duration, Option.getD_some]

/-- The call of a request is read as it was meant. -/
theorem read_assumeRole (roleArn sessionName : String) (durationSecs : UInt32) {tags : List (String × String)}
    (small : tags.length < 2 ^ 64) :
    ∃ form, (assumeRoleFields roleArn sessionName durationSecs tags).foldl Form.read .new = form ∧
      form.action = "AssumeRole" ∧ form.durationSecs = durationSecs.toNat ∧ form.tags = tags := by
  refine ⟨_, rfl, ?_⟩
  have fixed : [("Action", "AssumeRole"), ("Version", "2011-06-15"), ("RoleArn", roleArn),
      ("RoleSessionName", sessionName), ("DurationSeconds", Nat.repr durationSecs.toNat)].foldl Form.read .new =
        ⟨"AssumeRole", "", durationSecs.toNat, [], []⟩ := by
    have action : Form.new.read ("Action", "AssumeRole") = ⟨"AssumeRole", "", 900, [], []⟩ := rfl
    rw [List.foldl_cons, action, List.foldl_cons, read_unused _ (by decide), List.foldl_cons, read_unused _ (by decide),
      List.foldl_cons, read_unused _ (by decide), List.foldl_cons, read_duration, List.foldl_nil]
  rw [assumeRoleFields, List.foldl_append, fixed, foldl_tagFields tags _ 1 (by omega)]
  refine ⟨rfl, rfl, ?_⟩
  have numbers : ((tags.zipIdx 1).map (·.2)).Pairwise (· < ·) := by
    rw [List.zipIdx_map_snd]
    exact List.pairwise_lt_range'
  have keys : Sorting.sortBy toLex ((tags.zipIdx 1).map fun ((key, _), n) => (n, key)) = _ :=
    sortBy_of_firsts (by rw [List.map_map]; exact numbers)
  have values : Sorting.sortBy toLex ((tags.zipIdx 1).map fun ((_, value), n) => (n, value)) = _ :=
    sortBy_of_firsts (by rw [List.map_map]; exact numbers)
  simp only [Form.tags, List.nil_append]
  rw [keys, values, List.zip_map', List.map_map]
  exact List.zipIdx_map_fst 1 tags

/-- The call of a base hop is read as it was meant. -/
theorem read_webIdentity (roleArn sessionName webIdentityToken : String) (durationSecs : UInt32) :
    (webIdentityFields roleArn sessionName webIdentityToken durationSecs).foldl Form.read .new =
      ⟨"AssumeRoleWithWebIdentity", webIdentityToken, durationSecs.toNat, [], []⟩ := by
  have action : Form.new.read ("Action", "AssumeRoleWithWebIdentity") =
      ⟨"AssumeRoleWithWebIdentity", "", 900, [], []⟩ := rfl
  have token : Form.read ⟨"AssumeRoleWithWebIdentity", "", 900, [], []⟩ ("WebIdentityToken", webIdentityToken) =
      ⟨"AssumeRoleWithWebIdentity", webIdentityToken, 900, [], []⟩ := rfl
  rw [webIdentityFields, List.foldl_cons, action, List.foldl_cons, read_unused _ (by decide), List.foldl_cons,
    read_unused _ (by decide), List.foldl_cons, read_unused _ (by decide), List.foldl_cons, token, List.foldl_cons,
    read_duration, List.foldl_nil]

/-! ### What the server answers -/

/-- Every header of a call that is not signed can be read. -/
theorem sentHeaders_unsigned {endpoint : Config.Upstream} (host : '\n' ∉ endpoint.host.toList) (body : String) :
    ∀ header ∈ sentHeaders endpoint formType body [], PlainHeader header := by
  have names : ∀ name ∈ ["Host", "Content-Type", "Content-Length", "Connection"],
      ':' ∉ name.toList ∧ '\n' ∉ name.toList := by
    decide +kernel
  simp only [List.forall_mem_cons] at names
  obtain ⟨host_, type, length, connection, -⟩ := names
  have address : '\n' ∉ (addr endpoint).toList := by
    simp only [addr, String.toList_append, List.mem_append, not_or]
    exact ⟨⟨host, by decide⟩, newline_of_visible (repr_visible _)⟩
  have formed : '\n' ∉ formType.toList ∧ '\n' ∉ "close".toList := by decide +kernel
  simp only [sentHeaders, List.cons_append, List.nil_append, List.forall_mem_cons]
  exact ⟨⟨host_.1, host_.2, address⟩, ⟨type.1, type.2, formed.1⟩,
    ⟨length.1, length.2, newline_of_visible (repr_visible _)⟩, ⟨connection.1, connection.2, formed.2⟩,
    List.forall_mem_nil _⟩

theorem readRequest_unsigned {endpoint : Config.Upstream} (host : '\n' ∉ endpoint.host.toList) {body : String}
    (small : (Text.utf8Bytes body).length < 2 ^ 64) :
    readRequest (httpPostFormRequest endpoint "/" body []) =
      .ok ((sentHeaders endpoint formType body []).map received, Text.utf8Bytes body) :=
  readRequest_post (by decide) (sentHeaders_unsigned host body) small

/-- A token gives back the tags that it carries. -/
theorem decodeSessionToken_sessionToken {json : JsonText} {tags : List (String × String)}
    (readsBack : json.fromSlice (json.toVec (tokenValue tags)) = .ok (tokenValue tags)) :
    decodeSessionToken json (sessionToken json tags) = some (tagMap tags).toList := by
  have found : (tokenValue tags).get "tags" = .object ((tagMap tags).toList.map fun (k, v) => (k, .string v)) := rfl
  have texts : ((tagMap tags).toList.map fun (k, v) => (k, Value.string v)).map (fun (k, v) => (k, v.asStr.getD "")) =
      (tagMap tags).toList := by
    rw [List.map_map]
    exact List.map_id _
  unfold decodeSessionToken sessionToken
  simp only [String.toList_ofList, Base64.decode_encode, readsBack, bind, Option.bind, Except.toOption, found, texts]

section

variable {bytes : List UInt8} {headers : List (String × String)} {body roleArn sessionName : String}
  {durationSecs : UInt32} {tags : List (String × String)} {issued nowUnix : Nat}

theorem handle_eq {fields : List (String × String)} (reads : readRequest bytes = .ok (headers, Text.utf8Bytes body))
    (pairs : mockPairs body = some fields) : server.handle bytes issued nowUnix =
      server.answer headers (Text.utf8Bytes body) (fields.foldl Form.read .new) issued nowUnix := by
  unfold handle
  simp only [reads, Text.fromUtf8Lossy_utf8Bytes, pairs]

/-- The call of a base hop is answered with credentials without tags, and refused when its token is empty. -/
theorem handle_webIdentity (webIdentityToken : String) (reads : readRequest bytes = .ok (headers, Text.utf8Bytes
      (assumeRoleWithWebIdentityBody roleArn sessionName webIdentityToken durationSecs))) :
    server.handle bytes issued nowUnix =
      if webIdentityToken = "" then (respond 400 (errorXml "WebIdentityToken is required"), issued)
      else (respond 200 (server.credentialsXml "AssumeRoleWithWebIdentity" (issued + 1) []
        (nowUnix + durationSecs.toNat)), issued + 1) := by
  have pairs := mockPairs_formText (webIdentityFields_plain roleArn sessionName webIdentityToken durationSecs)
    (by simp [webIdentityFields])
  rw [← web_identity_body_eq] at pairs
  rw [handle_eq reads pairs, read_webIdentity]
  unfold answer
  exact if_pos rfl

/-- The call of a request is answered with credentials that carry its tags, where its signature is accepted or is not
    asked for. -/
theorem handle_assumeRole (few : tags.length < 2 ^ 64)
    (reads : readRequest bytes = .ok (headers, Text.utf8Bytes (assumeRoleBody roleArn sessionName durationSecs tags)))
    (accepted : server.requireSignedChain = true → verifyChainSignature server.hash headers
      (Text.utf8Bytes (assumeRoleBody roleArn sessionName durationSecs tags)) = .ok ()) :
    server.handle bytes issued nowUnix =
      (respond 200 (server.credentialsXml "AssumeRole" (issued + 1) tags (nowUnix + durationSecs.toNat)),
        issued + 1) := by
  have pairs := mockPairs_formText (assumeRoleFields_plain roleArn sessionName durationSecs tags)
    (by simp [assumeRoleFields])
  rw [← assumeRoleBody_eq] at pairs
  obtain ⟨form, reading, action, duration, same⟩ := read_assumeRole roleArn sessionName durationSecs few
  have verified : (if server.requireSignedChain then verifyChainSignature server.hash headers (Text.utf8Bytes
      (assumeRoleBody roleArn sessionName durationSecs tags)) else .ok ()) = .ok () := by
    by_cases required : server.requireSignedChain = true
    · rw [if_pos required, accepted required]
    · rw [if_neg required]
  rw [handle_eq reads pairs, reading]
  unfold answer
  rw [if_neg (by rw [action]; decide), if_pos action, verified, action, duration, same]

end

end MockSts

end SmallGateway.Aws
