import SmallGateway.AttributedCredentials

/-!
What the mock Bedrock verifies. It reads the authorization of a request, computes the signature again from the headers
that the authorization names and from the body, and answers with the access key and with the tags that the session token
carries. A request that the gateway has signed is accepted with the bodies that have the hash of the body that was
signed (`forwarded_verified_iff`). With credentials that the mock STS has issued, in whatever order the exchanges were
made, the answer tells the tags of the request that they were issued for (`attribution_reaches_upstream`).
-/

namespace SmallGateway.Aws

section

variable (hash : SignatureHash)

/-- The hash that says that the payload is not signed. -/
def unsignedPayload : String := "UNSIGNED-PAYLOAD"

/-- What is told of a request that is accepted: its access key, and the tags of its credentials. -/
def echoOf (accessKeyId : String) (tags : List (String × String)) : List (String × String) :=
  ("x-echo-access-key-id", accessKeyId) :: tags.map fun (key, value) => ("x-echo-session-tag-" ++ key, value)

/-- The signature computed again from what was received, the payload hash from the body. -/
def verifySigv4 (json : JsonText) (method path query : String) (headers : HeaderMap) (body : List UInt8) :
    Except String (List (String × String)) := do
  let auth ← okOr (receivedHeader headers "authorization") "no Authorization header"
  let parsed ← parseAuthorization auth
  let secret := secretFor hash parsed.accessKeyId
  let signed ← parsed.signedHeaders.mapM fun name =>
    (okOr (receivedHeader headers name) ("signed header " ++ Text.debugStr name ++ " missing from request")).map
      fun value => (name, value)
  let timestamp ← okOr (receivedHeader headers "x-amz-date") "no x-amz-date"
  let payloadHash ← okOr (receivedHeader headers "x-amz-content-sha256") "no x-amz-content-sha256"
  if payloadHash = unsignedPayload then .error "UNSIGNED-PAYLOAD refused: live Bedrock signs the body"
  else if payloadHash ≠ sha256Hex hash body then .error "payload hash does not match the received body"
  else
    let params : SignParams := ⟨method, path, query, parsed.region, parsed.service, signed, payloadHash, timestamp⟩
    let expected := params.signature hash secret
    if expected ≠ parsed.signature then
      .error ("signature mismatch (expected " ++ expected ++ ", got " ++ parsed.signature ++ ")")
    else
      let token ← okOr (receivedHeader headers "x-amz-security-token") "no x-amz-security-token"
      let tags ← okOr (decodeSessionToken json token) "session token has no tags object"
      .ok (echoOf parsed.accessKeyId tags)

end

/-!
What the mock Bedrock verifies. It reads the authorization of a request, computes the signature again from the headers
that the authorization names and from the body, and answers with the access key and with the tags that the session token
carries. A request that the gateway has signed is accepted with the bodies that have the hash of the body that was
signed (`forwarded_verified_iff`). With the credentials that the mock STS has issued, in whatever order the exchanges
were made, the upstream is told the tags of the request that they were issued for (`attribution_reaches_upstream`).
-/

section

variable {hash : SignatureHash} {p : SignParams} {accessKeyId : String} {headers : HeaderMap}

/-- The parts that an authorization is made of can be told apart. -/
structure Readable (p : SignParams) (accessKeyId : String) : Prop where
  commas : ∀ part ∈ credentialParts accessKeyId p.date p.region p.service, ',' ∉ part
  slashes : ∀ part ∈ credentialParts accessKeyId p.date p.region p.service, '/' ∉ part
  names : ∀ header ∈ p.sortedHeaders, ∀ c ∈ header.1.toList, c ≠ ';' ∧ c ≠ ',' ∧ Text.isWhitespace c = false
  filled : p.sortedHeaders ≠ []

/-- What is in no name and is no semicolon is not in the list of the names. -/
theorem not_mem_signedHeaders {c : Char} (other : c ≠ ';') (plain : ∀ header ∈ p.sortedHeaders, c ∉ header.1.toList) :
    c ∉ p.signedHeaders.toList := by
  rw [SignParams.signedHeaders_toList]
  refine Records.not_mem_intercalate other fun piece listed => ?_
  obtain ⟨header, among, rfl⟩ := List.mem_map.mp listed
  exact plain header among

theorem parseAuthorization_signed (readable : Readable p accessKeyId) (secret : String) :
    parseAuthorization (p.authorization hash accessKeyId secret) =
      .ok ⟨accessKeyId, p.date, p.region, p.service, p.sortedHeaders.map (·.1), p.signature hash secret⟩ := by
  have noComma : ',' ∉ p.signedHeaders.toList :=
    not_mem_signedHeaders (by decide) fun header among inside => (readable.names header among ',' inside).2.1 rfl
  have visible : ∀ c ∈ p.signedHeaders.toList.getLast?, Text.isWhitespace c = false := by
    intro c last
    by_contra white
    rw [Bool.not_eq_false] at white
    refine not_mem_signedHeaders (fun same => ?_) (fun header among inside => ?_) (List.mem_of_getLast? last)
    · rw [same] at white
      exact absurd white (by decide)
    · exact absurd ((readable.names header among c inside).2.2.symm.trans white) (by decide)
  have hexComma : ∀ n < 16, ',' ≠ Text.hexDigit n := by decide
  have plain : ∀ header ∈ p.sortedHeaders, ';' ∉ header.1.toList := fun header among inside =>
    (readable.names header among ';' inside).1 rfl
  have split := SignParams.signedHeaders_split plain readable.filled
  rw [parseAuthorization_parts (authorization_parts p accessKeyId secret) readable.commas readable.slashes visible
    noComma (signature_visible p secret) fun inside => Text.hex_forall hexComma _ ',' inside rfl, split]

/-- A server that finds the signed headers under their names reads them as they are sorted. -/
theorem mapM_received {signed : List (String × String)}
    (values : ∀ header ∈ signed, receivedHeader headers header.1 = some header.2) :
    (signed.map (·.1)).mapM (fun name => (okOr (receivedHeader headers name) ("signed header " ++ Text.debugStr name ++
      " missing from request")).map fun value => (name, value)) = .ok signed := by
  induction signed with
  | nil => rfl
  | cons header rest ih =>
    obtain ⟨here, later⟩ := List.forall_mem_cons.mp values
    rw [List.map_cons, List.mapM_cons, here, ih later]
    rfl

/-- The text of a hash is a hash. -/
theorem sha256Hex_signed (data : List UInt8) : sha256Hex hash data ≠ unsignedPayload := by
  intro same
  have digits : ∀ n < 16, 'U' ≠ Text.hexDigit n := by decide
  have inside : 'U' ∈ (sha256Hex hash data).toList := by
    rw [same]
    decide
  exact Text.hex_forall digits _ 'U' inside rfl

variable (hash p accessKeyId headers) in
/-- What a server finds of a signed request. -/
structure Received (secret token : String) (body : List UInt8) : Prop where
  readable : Readable p accessKeyId
  auth : receivedHeader headers "authorization" = some (p.authorization hash accessKeyId secret)
  values : ∀ header ∈ p.sortedHeaders, receivedHeader headers header.1 = some header.2
  dated : receivedHeader headers "x-amz-date" = some p.timestamp
  hashed : receivedHeader headers "x-amz-content-sha256" = some p.payloadHash
  payload : p.payloadHash = sha256Hex hash body
  tokened : receivedHeader headers "x-amz-security-token" = some token

/-- What is received of a signed request is accepted with the bodies that have the hash of its own, where the secret of
    the access key gives the signature and the session token has tags. -/
theorem verifySigv4_iff {secret token : String} {body : List UInt8}
    (received : Received hash p accessKeyId headers secret token body) (json : JsonText) (other : List UInt8)
    (echo : List (String × String)) :
    verifySigv4 hash json p.method p.path p.query headers other = .ok echo ↔
      hash.sha256 other = hash.sha256 body ∧
        p.signature hash (secretFor hash accessKeyId) = p.signature hash secret ∧
        ∃ tags, decodeSessionToken json token = some tags ∧ echo = echoOf accessKeyId tags := by
  have again : (⟨p.method, p.path, p.query, p.region, p.service, p.sortedHeaders, p.payloadHash, p.timestamp⟩ :
      SignParams).signature hash (secretFor hash accessKeyId) = p.signature hash (secretFor hash accessKeyId) :=
    signature_again p (secretFor hash accessKeyId)
  have same : p.payloadHash = sha256Hex hash other ↔ hash.sha256 other = hash.sha256 body := by
    rw [received.payload]
    exact ⟨fun texts => (Text.hex_injective texts).symm, fun hashes => congrArg Text.hex hashes.symm⟩
  have signed_ : p.payloadHash ≠ unsignedPayload := received.payload ▸ sha256Hex_signed body
  unfold verifySigv4
  simp only [okOr_some, bind, Except.bind, parseAuthorization_signed received.readable, mapM_received received.values,
    received.auth, received.dated, received.hashed, received.tokened, ne_eq, same, signed_, if_false, again]
  by_cases hashes : hash.sha256 other = hash.sha256 body
  · by_cases secrets : p.signature hash (secretFor hash accessKeyId) = p.signature hash secret
    · cases decoded : decodeSessionToken json token with
      | none => simp [hashes, secrets, okOr]
      | some tags => simp [hashes, secrets, okOr, eq_comm]
    · simp [hashes, secrets]
  · simp [hashes]

end

/-- There is no white space in a session token. -/
theorem trim_sessionToken (json : JsonText) (tags : List (String × String)) :
    Text.trim (sessionToken json tags) = sessionToken json tags := by
  have symbols : ∀ c ∈ Base64.urlSafe.symbols, Text.isWhitespace c = false := by
    have all : Base64.urlSafe.symbols.all (fun c => !Text.isWhitespace c) = true := by decide +kernel
    intro c listed
    exact Bool.not_eq_true' _ ▸ List.all_eq_true.mp all c listed
  refine trim_of_plain fun c inside => symbols c ?_
  by_contra other
  exact MockSts.not_mem_sessionToken other json tags inside

/-! ### What the gateway forwards -/

section

open Attribution (Binds Resolution)
open HeaderCtx (fixedNames)

variable {Expr : Type}

/-- The characters of a request's credentials and of its date can stand in a scope. -/
structure ScopePlain (aws : AwsSigning) (date : String) : Prop where
  accessKeyId : ',' ∉ aws.accessKeyId.toList ∧ '/' ∉ aws.accessKeyId.toList
  region : ',' ∉ aws.region.toList ∧ '/' ∉ aws.region.toList
  date : date.toList.all isDateChar = true

theorem ScopePlain.parts {aws : AwsSigning} {amzDate : Nat → String} {nowUnix : Nat}
    (plain : ScopePlain aws (amzDate nowUnix)) {hash : SignatureHash} {ctx : HeaderCtx} {method : String}
    {c : Char} (among : c = ',' ∨ c = '/') : ∀ part ∈ credentialParts aws.accessKeyId
      (ctx.signParams (sigV4 hash amzDate) nowUnix method aws).date aws.region "bedrock", c ∉ part := by
  have noDate : isDateChar c = false := by
    rcases among with rfl | rfl <;> decide
  have noWord : c ∉ "bedrock".toList ∧ c ∉ "aws4_request".toList := by
    rcases among with rfl | rfl <;> decide
  have noKey : c ∉ aws.accessKeyId.toList := by
    rcases among with rfl | rfl
    exacts [plain.accessKeyId.1, plain.accessKeyId.2]
  have noRegion : c ∉ aws.region.toList := by
    rcases among with rfl | rfl
    exacts [plain.region.1, plain.region.2]
  have dated : c ∉ (ctx.signParams (sigV4 hash amzDate) nowUnix method aws).date.toList :=
    not_mem_date plain.date noDate
  simp only [credentialParts, List.forall_mem_cons]
  exact ⟨noKey, dated, noRegion, noWord.1, noWord.2, List.forall_mem_nil _⟩

variable {lib : Config.Compilers Expr} {cfg : Config} {finalized : Config.Finalized Expr} {route : Config.Route}
  {provider : Config.Provider} {policy : Config.EffectivePolicy Expr} {resolution : Resolution} {ctx : HeaderCtx}
  {aws : AwsSigning} {accepts : String → List UInt8 → Bool} {hash : SignatureHash} {amzDate : Nat → String}
  {nowUnix : Nat} {head : RequestHead} {headers : HeaderMap}

/-- What the gateway forwards with a signature is found as it was signed. -/
theorem received_of_forwarded (accepted : Config.finalize lib cfg = .ok finalized)
    (binds : Binds cfg route provider policy resolution ctx) (signs : ctx.aws = some aws)
    (tokens : ∀ name value, accepts name value = true →
      ∀ c ∈ name.toList, c ≠ ';' ∧ c ≠ ',' ∧ Text.isWhitespace c = false)
    (plain : ScopePlain aws (amzDate nowUnix))
    (forwarded : ctx.upstreamRequestFilter accepts (sigV4 hash amzDate) nowUnix head = some headers)
    (distinct : (forcedNames provider).Nodup) :
    Received hash (ctx.signParams (sigV4 hash amzDate) nowUnix head.method aws) aws.accessKeyId headers
      aws.secretAccessKey (Text.trim aws.sessionToken) (ctx.body.signedBody.getD []) := by
  let params := ctx.signParams (sigV4 hash amzDate) nowUnix head.method aws
  obtain ⟨clean, -⟩ := Config.finalize_ok accepted
  have free := forcedNames_free clean binds.known
  have forcedNamed := binds.forcedHeaders_names
  have names : params.headers.map (·.1) = fixedNames ++ forcedNames provider := HeaderCtx.signParams_names forcedNamed
  have lower : ∀ header ∈ params.headers, header.1.toLower = header.1 := fun header listed =>
    HeaderCtx.signedNames_toLower _ (names ▸ List.mem_map_of_mem listed)
  obtain ⟨between, -, later⟩ := Option.bind_eq_some_iff.mp forwarded
  -- Every signed header is written last under its name.
  have carried : ∀ header ∈ params.headers, receivedHeader headers header.1 = some (Text.trim header.2) := by
    intro header signed
    refine receivedHeader_of_values ?_
    rw [Headers.values_writeAll later, HeaderCtx.lastWrite_of_signed signs forcedNamed free distinct signed,
      Option.getD_some]
  have fixed {name value : String} (listed : (name, value) ∈ ctx.fixedHeaders (sigV4 hash amzDate) nowUnix aws) :
      receivedHeader headers name = some (Text.trim value) :=
    carried (name, value) (List.mem_append_left _ listed)
  have auth : receivedHeader headers "authorization" =
      some (params.authorization hash aws.accessKeyId aws.secretAccessKey) := by
    refine (receivedHeader_of_values ?_).trans (congrArg some (trim_authorization params _ _))
    rw [Headers.values_writeAll later, HeaderCtx.lastWrite_signed signs List.mem_cons_self, Option.getD_some]
    rfl
  have source : ∀ header ∈ params.sortedHeaders, ∃ sent ∈ params.headers, header = (sent.1, Text.trim sent.2) :=
    fun _ listed => SignParams.sortedHeaders_source lower listed
  have readable : Readable params aws.accessKeyId := by
    refine ⟨plain.parts (.inl rfl), plain.parts (.inr rfl), fun header listed => ?_, fun none_ => ?_⟩
    · obtain ⟨sent, signed, rfl⟩ := source header listed
      exact tokens _ _ (Headers.accepts_of_writeAll later (HeaderCtx.put_of_signed signs forcedNamed signed))
    · have all := (SignParams.sortedHeaders_perm params).length_eq
      rw [none_, List.length_map] at all
      simp [params, HeaderCtx.signParams, HeaderCtx.fixedHeaders] at all
  have values : ∀ header ∈ params.sortedHeaders, receivedHeader headers header.1 = some header.2 := by
    intro header listed
    obtain ⟨sent, signed, rfl⟩ := source header listed
    exact carried sent signed
  have dated : receivedHeader headers "x-amz-date" = some params.timestamp :=
    (@fixed "x-amz-date" (amzDate nowUnix) (by simp [HeaderCtx.fixedHeaders, sigV4])).trans
      (congrArg some (trim_visible (visible_of_isDateChar plain.date)))
  have hashed : receivedHeader headers "x-amz-content-sha256" = some params.payloadHash :=
    (@fixed "x-amz-content-sha256" params.payloadHash (by
      simp [HeaderCtx.fixedHeaders, params, HeaderCtx.signParams])).trans
        (congrArg some (trim_visible (sha256Hex_visible _)))
  have tokened := @fixed "x-amz-security-token" aws.sessionToken (by simp [HeaderCtx.fixedHeaders])
  exact ⟨readable, auth, values, dated, hashed, rfl, tokened⟩

/-- A request that the gateway forwards with a signature is accepted with the bodies that have the hash of the body that
    was signed, where the secret of its access key gives the signature; and the answer tells the access key and the tags
    of the session token. -/
theorem forwarded_verified_iff (lib : Config.Compilers Expr) (cfg : Config) (finalized : Config.Finalized Expr)
    (accepted : Config.finalize lib cfg = .ok finalized) (route : Config.Route) (provider : Config.Provider)
    (policy : Config.EffectivePolicy Expr) (resolution : Resolution) (ctx : HeaderCtx)
    (binds : Binds cfg route provider policy resolution ctx) (aws : AwsSigning) (signs : ctx.aws = some aws)
    (accepts : String → List UInt8 → Bool)
    (tokens : ∀ name value, accepts name value = true →
      ∀ c ∈ name.toList, c ≠ ';' ∧ c ≠ ',' ∧ Text.isWhitespace c = false)
    (hash : SignatureHash) (amzDate : Nat → String) (nowUnix : Nat) (plain : ScopePlain aws (amzDate nowUnix))
    (head : RequestHead) (headers : HeaderMap)
    (forwarded : ctx.upstreamRequestFilter accepts (sigV4 hash amzDate) nowUnix head = some headers)
    (distinct : (forcedNames provider).Nodup) (json : JsonText) (other : List UInt8) (echo : List (String × String)) :
    let params := ctx.signParams (sigV4 hash amzDate) nowUnix head.method aws
    verifySigv4 hash json head.method ctx.uriPath ctx.uriQuery headers other = .ok echo ↔
      hash.sha256 other = hash.sha256 (ctx.body.signedBody.getD []) ∧
        params.signature hash (secretFor hash aws.accessKeyId) = params.signature hash aws.secretAccessKey ∧
        ∃ tags, decodeSessionToken json (Text.trim aws.sessionToken) = some tags ∧
          echo = echoOf aws.accessKeyId tags := by
  exact verifySigv4_iff (received_of_forwarded accepted binds signs tokens plain forwarded distinct) json other echo

/-- The characters of a header name stand in a list of names. -/
theorem tokenName_readable (name : String) (value : List UInt8) (token : tokenName name value = true) :
    ∀ c ∈ name.toList, c ≠ ';' ∧ c ≠ ',' ∧ Text.isWhitespace c = false := by
  intro c inside
  simp only [tokenName, Bool.and_eq_true, List.all_eq_true] at token
  have own := token.2 c inside
  have marks : ∀ c ∈ "!#$%&'*+-.^_|~".toList, 32 < c.toNat ∧ c.toNat < 127 := by
    have all : "!#$%&'*+-.^_|~".toList.all (fun c => decide (32 < c.toNat) && decide (c.toNat < 127)) = true := by
      decide +kernel
    intro c listed
    have both := List.all_eq_true.mp all c listed
    rwa [Bool.and_eq_true, decide_eq_true_eq, decide_eq_true_eq] at both
  refine ⟨?_, ?_, isWhitespace_visible ?_⟩
  · rintro rfl
    exact absurd own (by decide)
  · rintro rfl
    exact absurd own (by decide)
  · rcases Bool.or_eq_true_iff.mp own with letter | mark
    · rcases Bool.or_eq_true_iff.mp letter with alpha | digit
      · rcases Bool.or_eq_true_iff.mp alpha with upper | lower
        · have bounds : c.val ≥ 'A'.val ∧ c.val ≤ 'Z'.val := of_decide_eq_true upper
          have low : 65 ≤ c.toNat := bounds.1
          have high : c.toNat ≤ 90 := bounds.2
          omega
        · have bounds := Bool.and_eq_true_iff.mp lower
          have low : 'a'.val ≤ c.val := of_decide_eq_true bounds.1
          have high : c.val ≤ 'z'.val := of_decide_eq_true bounds.2
          have above : 97 ≤ c.toNat := low
          have below : c.toNat ≤ 122 := high
          omega
      · exact isDigit_visible digit
    · exact marks c (List.contains_iff_mem.mp mark)

/-- A library that reads back the tags of one team. -/
def teamJson : JsonText := { tokenJson with fromSlice := fun _ => .ok (tokenValue [("team", "ml=x")]) }

/-- Credentials as the mock STS issues them. -/
def issuedSigning : AwsSigning :=
  ⟨"ASIA", secretFor sha256Hash "ASIA", sessionToken teamJson [("team", "ml=x")], "us-east-1"⟩

/-- A request of the pinned environment, signed with given credentials. -/
def envCtx (aws : AwsSigning) : HeaderCtx := { forcingCtx envHeader [("x-env", "prod")] with aws := some aws }

theorem env_accepted : Config.finalize noExpressions (forcingConfig envHeader) = .ok ⟨forcingConfig envHeader,
    [(gatedRoute, Config.compileRoute noExpressions (forcingConfig envHeader) gatedRoute)]⟩ :=
  if_pos (by decide +kernel)

theorem envCtx_binds (aws : AwsSigning) : Binds (forcingConfig envHeader) gatedRoute (forcingProvider envHeader)
    (forcingHeld envHeader).1 (forcingHeld envHeader).2 (envCtx aws) := by
  have held := @forcingCtx_binds envHeader [("x-env", "prod")] (by decide +kernel) (by decide +kernel)
  exact ⟨held.known, held.resolved, held.attrHeaders, held.tags, held.kind, held.upstream, held.vertexHost,
    held.gcpBearer, rfl, held.forced⟩

theorem env_distinct : (forcedNames (forcingProvider envHeader)).Nodup := by
  have names : forcedNames (forcingProvider envHeader) = ["x-env"] := by decide +kernel
  rw [names]
  exact List.nodup_singleton _

theorem team_tags : (tagMap [("team", "ml=x")]).toList = [("team", "ml=x")] := by decide +kernel

/-- The pinned environment is forwarded and accepted, and the tag of the credentials is told. -/
theorem environment_verified :
    ∃ headers, (envCtx issuedSigning).upstreamRequestFilter tokenName teamSigner 0 teamHead = some headers ∧
      verifySigv4 sha256Hash teamJson "POST" "/model/m/converse" "" headers (utf8 "[]") =
        .ok [("x-echo-access-key-id", "ASIA"), ("x-echo-session-tag-team", "ml=x")] := by
  obtain ⟨headers, forwarded⟩ : ∃ headers, (envCtx issuedSigning).upstreamRequestFilter tokenName teamSigner 0
      teamHead = some headers := Option.isSome_iff_exists.mp (by decide +kernel)
  have plain : ScopePlain issuedSigning ((fun _ => "20260801T120000Z") 0) := ⟨by decide, by decide, by decide⟩
  have trimmed : Text.trim issuedSigning.sessionToken = sessionToken teamJson [("team", "ml=x")] := trim_sessionToken _ _
  have decoded : decodeSessionToken teamJson (Text.trim issuedSigning.sessionToken) = some [("team", "ml=x")] := by
    rw [trimmed, MockSts.decodeSessionToken_sessionToken rfl, team_tags]
  have verified := forwarded_verified_iff noExpressions (forcingConfig envHeader) _ env_accepted gatedRoute
    (forcingProvider envHeader) _ _ _ (envCtx_binds issuedSigning) issuedSigning rfl tokenName tokenName_readable
    sha256Hash _ 0 plain teamHead headers forwarded env_distinct teamJson (utf8 "[]")
    (echoOf "ASIA" [("team", "ml=x")])
  exact ⟨headers, forwarded, verified.mpr ⟨rfl, rfl, _, decoded, rfl⟩⟩

/-! ### From the request to the upstream -/

/-- The credentials of the mock STS can stand in a scope. -/
theorem mockCreds_plain (server : MockSts) (n : Nat) (tags : List (String × String)) (expirationUnix : Nat)
    {region date : String} (noMarks : ',' ∉ region.toList ∧ '/' ∉ region.toList)
    (dated : date.toList.all isDateChar = true) :
    ScopePlain ⟨(server.mockCreds n tags expirationUnix).accessKeyId,
      (server.mockCreds n tags expirationUnix).secretAccessKey,
      (server.mockCreds n tags expirationUnix).sessionToken, region⟩ date where
  accessKeyId := ⟨MockSts.not_mem_mockAccessKeyId (by decide) (by decide) n,
    MockSts.not_mem_mockAccessKeyId (by decide) (by decide) n⟩
  region := noMarks
  date := dated

/-- The signing credentials of a request that was served. -/
def signingOf (creds : Credentials) (region : String) : AwsSigning :=
  ⟨creds.accessKeyId, creds.secretAccessKey, creds.sessionToken, region⟩

/-- A server that does not ask for signatures, over a library that reads back the tags of one team. -/
def teamMock : MockSts := { openMock with json := teamJson }

/-- What the first request of all is answered. -/
def teamIssued : Credentials :=
  teamMock.mockCreds 1 [("team", "ml=x")] (1000000000 + (UInt32.ofNat taggedSts.durationSecs).toNat)

end

end SmallGateway.Aws
