import SmallGateway.Lib.Records
import SmallGateway.Lib.Sha256
import SmallGateway.Lib.Sorting
import SmallGateway.UpstreamHeaders
import Mathlib.Data.Prod.Lex
import Mathlib.Data.String.Basic

/-!
The signature of a Bedrock request (`SignParams` in `gateway-core/src/aws.rs`, `sign_bedrock_request` in
`gatewayd/src/aws_auth.rs`). The signed headers are a fixed part and those that the operator forces, which are also put
into the request, each in the place of what stands under its name. What is signed is what is sent, and a server that
computes the canonical request again from the request it has received gets the one that was signed, exactly when no two of
the forced headers have one name, whatever its letter case (`signed_as_sent_iff`).
-/

namespace SmallGateway

/-! ### What is signed -/

/-- The hash and the keyed hash of a signature. -/
structure SignatureHash where
  sha256 : List UInt8 → List UInt8
  hmac : List UInt8 → List UInt8 → List UInt8

namespace SignParams

def date (p : SignParams) : String := String.ofList (p.timestamp.toList.take 8)

def scope (p : SignParams) : String := p.date ++ "/" ++ p.region ++ "/" ++ p.service ++ "/aws4_request"

def sortedHeaders (p : SignParams) : List (String × String) :=
  Sorting.sortBy toLex (p.headers.map fun (name, value) => (name.toLower, Text.trim value))

def signedHeaders (p : SignParams) : String := String.intercalate ";" (p.sortedHeaders.map (·.1))

/-- The parameters of a query, sorted by name and value. -/
def canonicalQuery (query : String) : String :=
  if query = "" then ""
  else
    let params := ((query.toList.splitOn '&').filter (· ≠ [])).map fun param =>
      let (name, value) := (Text.splitOnce '=' param).getD (param, [])
      (String.ofList name, String.ofList value)
    String.intercalate "&" ((Sorting.sortBy toLex params).map fun (name, value) => name ++ "=" ++ value)

def canonicalRequest (p : SignParams) : String :=
  let canonicalHeaders := String.join (p.sortedHeaders.map fun (name, value) => name ++ ":" ++ value ++ "\n")
  p.method ++ "\n" ++ p.path ++ "\n" ++ canonicalQuery p.query ++ "\n" ++ canonicalHeaders ++ "\n" ++ p.signedHeaders ++
    "\n" ++ p.payloadHash

variable (hash : SignatureHash)

def stringToSign (p : SignParams) : String :=
  "AWS4-HMAC-SHA256\n" ++ p.timestamp ++ "\n" ++ p.scope ++ "\n" ++ Text.hex (hash.sha256 (utf8 p.canonicalRequest))

def signature (p : SignParams) (secretAccessKey : String) : String :=
  let kDate := hash.hmac (utf8 ("AWS4" ++ secretAccessKey)) (utf8 p.date)
  let kRegion := hash.hmac kDate (utf8 p.region)
  let kService := hash.hmac kRegion (utf8 p.service)
  let kSigning := hash.hmac kService (utf8 "aws4_request")
  Text.hex (hash.hmac kSigning (utf8 (p.stringToSign hash)))

def authorization (p : SignParams) (accessKeyId secretAccessKey : String) : String :=
  "AWS4-HMAC-SHA256 Credential=" ++ accessKeyId ++ "/" ++ p.scope ++ ", SignedHeaders=" ++ p.signedHeaders ++
    ", Signature=" ++ p.signature hash secretAccessKey

end SignParams

def sha256Hash : SignatureHash := ⟨Sha256.sha256, Sha256.hmac⟩

/-- The signature scheme over a hash, with the form of a date. -/
def sigV4 (hash : SignatureHash) (amzDate : Nat → String) : Signer :=
  ⟨amzDate, fun body => Text.hex (hash.sha256 body), fun p => p.authorization hash⟩

/-- The payload hash of a request without a body. -/
example : (sigV4 sha256Hash fun _ => "").sha256Hex [] =
    "e3b0c44298fc1c149afbf4c8996fb92427ae41e4649b934ca495991b7852b855" := by decide +kernel

/-- The headers that are signed on every request. -/
def HeaderCtx.fixedHeaders (ctx : HeaderCtx) (signer : Signer) (nowUnix : Nat) (aws : AwsSigning) :
    List (String × String) :=
  [("host", ctx.upstream.host ++ ":" ++ toString ctx.upstream.port),
    ("x-amz-content-sha256", signer.sha256Hex (ctx.body.signedBody.getD [])), ("x-amz-date", signer.amzDate nowUnix),
    ("x-amz-security-token", aws.sessionToken)]

/-- What the signature of a request covers. -/
def HeaderCtx.signParams (ctx : HeaderCtx) (signer : Signer) (nowUnix : Nat) (method : String) (aws : AwsSigning) :
    SignParams :=
  ⟨method, ctx.uriPath, ctx.uriQuery, aws.region, "bedrock",
    ctx.fixedHeaders signer nowUnix aws ++ ctx.forcedHeaders.map fun (name, value) => (name.toLower, value),
    signer.sha256Hex (ctx.body.signedBody.getD []), signer.amzDate nowUnix⟩

/-! ### What a server computes again -/

/-- A header as a server reads it: the text of its first value, without the white space around it. -/
def receivedHeader (headers : HeaderMap) (name : String) : Option String :=
  ((Headers.values name headers).head?.bind fun bytes => String.fromUTF8? ⟨bytes.toArray⟩).map Text.trim

/-- What the server takes the signature to cover, from the request and from what the authorization says (`verify_sigv4` of
    the mock Bedrock). -/
def receivedParams (method path query : String) (headers : HeaderMap) (region service signedHeaders : String) :
    Option SignParams := do
  let signed ← ((signedHeaders.toList.splitOn ';').map String.ofList).mapM fun name =>
    (receivedHeader headers name).map fun value => (name, value)
  let timestamp ← receivedHeader headers "x-amz-date"
  let payloadHash ← receivedHeader headers "x-amz-content-sha256"
  some ⟨method, path, query, region, service, signed, payloadHash, timestamp⟩

/-- The signed names stand once each, in order, each with the value that the request has under it, and the forced names
    are among them; and a server gets the canonical request that was signed. -/
structure SignedAsSent (p : SignParams) (forced : List String) (headers : HeaderMap) : Prop where
  names : (p.sortedHeaders.map (·.1)).Pairwise (· < ·)
  values : ∀ header ∈ p.sortedHeaders, ∃ sent, Headers.values header.1 headers = [utf8 sent] ∧ header.2 = Text.trim sent
  forced : ∀ name ∈ forced, name ∈ p.sortedHeaders.map (·.1)
  recomputed : (receivedParams p.method p.path p.query headers p.region p.service p.signedHeaders).map
    SignParams.canonicalRequest = some p.canonicalRequest

/-! ### Texts -/

theorem char_toLower_toLower (c : Char) : c.toLower.toLower = c.toLower := by
  unfold Char.toLower
  split
  · rename_i upper
    rw [dif_neg]
    intro again
    have bounds := again.2
    have low := upper.1
    simp only [UInt32.le_iff_toNat_le, UInt32.toNat_add] at bounds low
    have high := upper.2
    simp only [UInt32.le_iff_toNat_le] at high
    simp at bounds low high
    omega
  · rfl

theorem toLower_toLower (text : String) : text.toLower.toLower = text.toLower := by
  refine String.toList_inj.mp ?_
  have lowered (text : String) : text.toLower = text.map Char.toLower := rfl
  simp only [lowered, String.toList_map, List.map_map]
  exact List.map_congr_left fun c _ => char_toLower_toLower c

/-- A text without white space is left by trimming. -/
theorem trim_of_plain {text : String} (plain : ∀ c ∈ text.toList, Text.isWhitespace c = false) : Text.trim text = text := by
  have kept (chars : List Char) (plain : ∀ c ∈ chars, Text.isWhitespace c = false) :
      chars.dropWhile Text.isWhitespace = chars := by
    cases chars with
    | nil => rfl
    | cons c rest => rw [List.dropWhile_cons_of_neg (by simp [plain c])]
  rw [Text.trim, kept _ plain, kept _ fun c inside => plain c (List.mem_reverse.mp inside), List.reverse_reverse,
    String.ofList_toList]

theorem hex_plain (bytes : List UInt8) : ∀ c ∈ (Text.hex bytes).toList, Text.isWhitespace c = false := by
  have digits : ∀ n < 16, Text.isWhitespace (Text.hexDigit n) = false := by decide
  intro c inside
  rw [Text.hex, String.toList_ofList] at inside
  obtain ⟨byte, -, written⟩ := List.mem_flatMap.mp inside
  have bound := byte.toNat_lt
  simp only [List.mem_cons, List.not_mem_nil, or_false] at written
  rcases written with rfl | rfl
  · exact digits _ (by omega)
  · exact digits _ (by omega)

theorem receivedHeader_of_values {headers : HeaderMap} {name sent : String}
    (there : Headers.values name headers = [utf8 sent]) : receivedHeader headers name = some (Text.trim sent) := by
  have read : String.fromUTF8? ⟨(utf8 sent).toArray⟩ = some sent := by
    simp only [utf8, String.fromUTF8?, Array.toArray_toList]
    exact dif_pos sent.isValidUTF8
  rw [receivedHeader, there, List.head?_cons, Option.bind_some, read, Option.map_some]

/-! ### What is sent is what is signed -/

namespace SignParams

variable {p : SignParams}

theorem sortedHeaders_perm (p : SignParams) :
    p.sortedHeaders.Perm (p.headers.map fun (name, value) => (name.toLower, Text.trim value)) :=
  Sorting.sortBy_perm toLex _

theorem sortedNames_perm (p : SignParams) :
    (p.sortedHeaders.map (·.1)).Perm (p.headers.map fun header => header.1.toLower) := by
  have names := (sortedHeaders_perm p).map (·.1)
  rwa [List.map_map] at names

/-- The signed names stand once each, in order, exactly when no two headers have one name. -/
theorem names_sorted_iff :
    (p.sortedHeaders.map (·.1)).Pairwise (· < ·) ↔ (p.headers.map fun header => header.1.toLower).Nodup := by
  constructor
  · intro sorted
    exact (sortedNames_perm p).nodup_iff.mp (sorted.imp fun less => ne_of_lt less)
  · intro distinct
    have apart := (sortedNames_perm p).nodup_iff.mpr distinct
    rw [List.Nodup, List.pairwise_map] at apart
    rw [List.pairwise_map]
    refine ((Sorting.sortBy_sorted toLex _).and apart).imp fun {a b} both => ?_
    rcases Prod.Lex.toLex_le_toLex.mp both.1 with less | same
    · exact less
    · exact absurd same.1 both.2

/-- Headers that are signed are written as they are sorted. -/
theorem sortedHeaders_again {q : SignParams} (same : q.headers = p.sortedHeaders) : q.sortedHeaders = p.sortedHeaders := by
  have kept : p.sortedHeaders.map (fun (name, value) => (name.toLower, Text.trim value)) = p.sortedHeaders := by
    refine (List.map_congr_left fun header listed => ?_).trans (List.map_id _)
    obtain ⟨⟨name, value⟩, -, rfl⟩ := List.mem_map.mp ((sortedHeaders_perm p).mem_iff.mp listed)
    exact Prod.ext (toLower_toLower name) (Text.trim_trim value)
  rw [sortedHeaders, same, kept]
  exact Sorting.sortBy_eq_of_perm (fun a _ b _ equal => toLex.injective equal) (sortedHeaders_perm p)

/-- What is signed is what is sent under the name, without the white space around it. -/
theorem sortedHeaders_source (lower : ∀ header ∈ p.headers, header.1.toLower = header.1) {header : String × String}
    (listed : header ∈ p.sortedHeaders) : ∃ sent ∈ p.headers, header = (sent.1, Text.trim sent.2) := by
  obtain ⟨sent, signed, rfl⟩ := List.mem_map.mp ((sortedHeaders_perm p).mem_iff.mp listed)
  exact ⟨sent, signed, Prod.ext (lower sent signed) rfl⟩

theorem signedHeaders_toList (p : SignParams) :
    p.signedHeaders.toList = [';'].intercalate (p.sortedHeaders.map fun header => header.1.toList) := by
  have sign : ";".toList = [';'] := rfl
  rw [signedHeaders, String.toList_intercalate, sign, List.map_map]
  rfl

/-- The list of the names is split into the names. -/
theorem signedHeaders_split (plain : ∀ header ∈ p.sortedHeaders, ';' ∉ header.1.toList)
    (some_ : p.sortedHeaders ≠ []) :
    (p.signedHeaders.toList.splitOn ';').map String.ofList = p.sortedHeaders.map (·.1) := by
  have pieces : ∀ piece ∈ p.sortedHeaders.map (fun header => header.1.toList), ';' ∉ piece := by
    intro piece listed
    obtain ⟨header, among, rfl⟩ := List.mem_map.mp listed
    exact plain header among
  rw [signedHeaders_toList, List.splitOn_intercalate ';' pieces (by simpa using some_), List.map_map]
  exact List.map_congr_left fun header _ => String.ofList_toList

end SignParams

/-- A server that finds the signed headers under their names gets what was signed. -/
theorem receivedParams_canonical {p : SignParams} {headers : HeaderMap}
    (plain : ∀ header ∈ p.sortedHeaders, ';' ∉ header.1.toList) (some_ : p.sortedHeaders ≠ [])
    (values : ∀ header ∈ p.sortedHeaders, receivedHeader headers header.1 = some header.2) {timestamp : String}
    (dated : receivedHeader headers "x-amz-date" = some timestamp)
    (hashed : receivedHeader headers "x-amz-content-sha256" = some p.payloadHash) :
    (receivedParams p.method p.path p.query headers p.region p.service p.signedHeaders).map SignParams.canonicalRequest =
      some p.canonicalRequest := by
  have names := SignParams.signedHeaders_split plain some_
  have found (signed : List (String × String))
      (values : ∀ header ∈ signed, receivedHeader headers header.1 = some header.2) :
      (signed.map (·.1)).mapM (fun name => (receivedHeader headers name).map fun value => (name, value)) = some signed := by
    induction signed with
    | nil => rfl
    | cons header rest ih =>
      obtain ⟨here, later⟩ := List.forall_mem_cons.mp values
      rw [List.map_cons, List.mapM_cons, here, ih later]
      rfl
  have read : receivedParams p.method p.path p.query headers p.region p.service p.signedHeaders =
      some ⟨p.method, p.path, p.query, p.region, p.service, p.sortedHeaders, p.payloadHash, timestamp⟩ := by
    rw [receivedParams, names, found _ values, dated, hashed]
    rfl
  have again := SignParams.sortedHeaders_again (p := p)
    (q := ⟨p.method, p.path, p.query, p.region, p.service, p.sortedHeaders, p.payloadHash, timestamp⟩) rfl
  rw [read, Option.map_some]
  unfold SignParams.canonicalRequest SignParams.signedHeaders
  rw [again]

/-! ### What the gateway writes -/

/-- The names of the headers that a provider forces, in lower case. -/
def forcedNames (provider : Config.Provider) : List String :=
  ((provider.inject.map (·.headers)).getD []).map fun header => header.name.toLower

theorem resolveInjection_names {inject : Injection} {tags : List Tag} {resolved : ResolvedInjection}
    (made : resolveInjection inject tags = .ok resolved) :
    resolved.headers.map (·.1) = inject.headers.map fun header => header.name.toLower := by
  have named {headers : List ForcedHeader} {pairs : List (String × String)}
      (each : List.Forall₂ (fun header pair => resolveHeader tags header = .ok pair) headers pairs) :
      pairs.map (·.1) = headers.map fun header => header.name.toLower := by
    induction each with
    | nil => rfl
    | cons one _ ih =>
      obtain ⟨value, -, rfl⟩ := Fallible.map_ok.mp one
      rw [List.map_cons, List.map_cons, ih]
  unfold resolveInjection at made
  cases headers : inject.headers.mapM (resolveHeader tags) with
  | error e => simp only [headers, reduceCtorEq] at made
  | ok pairs =>
    cases body : inject.body.mapM (resolveBodyField tags) with
    | error e => simp only [headers, body, reduceCtorEq] at made
    | ok fields =>
      simp only [headers, body, Except.ok.injEq] at made
      rw [← made]
      exact named (Fallible.forall₂_of_mapM_ok headers)

theorem Attribution.Binds.forcedHeaders_names {Expr : Type} {cfg : Config} {route : Config.Route}
    {provider : Config.Provider} {policy : Config.EffectivePolicy Expr} {resolution : Resolution} {ctx : HeaderCtx}
    (binds : Binds cfg route provider policy resolution ctx) : ctx.forcedHeaders.map (·.1) = forcedNames provider := by
  have forced := binds.forced
  rw [HeaderCtx.forcedHeaders, forcedNames]
  cases given : provider.inject with
  | none =>
    simp only [given] at forced
    rw [forced]
    rfl
  | some inject =>
    simp only [given] at forced
    obtain ⟨resolved, made, bound⟩ := forced
    rw [bound]
    exact resolveInjection_names made

/-- No header that signing owns is forced by a config without errors. -/
theorem forcedNames_free {Expr : Type} {lib : Config.Compilers Expr} {cfg : Config}
    (accepted : Config.configErrors lib cfg = []) {name : String} {provider : Config.Provider}
    (known : cfg.providers[name]? = some provider) :
    ∀ forced ∈ forcedNames provider, reservedHeaders.contains forced = false := by
  intro forced listed
  have own := Config.validateProvider_nil accepted known
  simp only [Config.validateProvider, List.append_eq_nil_iff] at own
  cases given : provider.inject with
  | none => simp [forcedNames, given] at listed
  | some inject =>
    simp only [forcedNames, given, Option.map_some, Option.getD_some] at listed
    obtain ⟨header, inside, rfl⟩ := List.mem_map.mp listed
    have checked := own.2
    simp only [given, Config.validateInjection, List.append_eq_nil_iff, List.flatMap_eq_nil_iff] at checked
    have clean := checked.1.2 header inside
    simp only [Config.validateForcedHeader, List.append_eq_nil_iff, Config.refuseIf_nil] at clean
    exact clean.1.2

namespace HeaderCtx

open Headers (lastWrite lastWrite_append)

variable {ctx : HeaderCtx} {signer : Signer} {nowUnix : Nat} {method : String} {passthrough : Bool} {aws : AwsSigning}

/-- The names of the fixed headers. -/
def fixedNames : List String := ["host", "x-amz-content-sha256", "x-amz-date", "x-amz-security-token"]

theorem fixedHeaders_names : (ctx.fixedHeaders signer nowUnix aws).map (·.1) = fixedNames := rfl

theorem fixed_reserved : ∀ name ∈ fixedNames, reservedHeaders.contains name = true := by decide

/-- What signing writes is written last. -/
theorem lastWrite_signed (signs : ctx.aws = some aws) {name value : String}
    (signed : (name, value) ∈ ("authorization", signer.authorization (ctx.signParams signer nowUnix method aws)
      aws.accessKeyId aws.secretAccessKey) :: ctx.fixedHeaders signer nowUnix aws) :
    lastWrite name (ctx.gatewayWrites signer nowUnix method passthrough) = some [utf8 value] := by
  have last : lastWrite name (ctx.signBedrockRequest signer nowUnix method aws) = some [utf8 value] := by
    simp only [fixedHeaders, List.mem_cons, List.not_mem_nil, or_false, Prod.mk.injEq] at signed
    rcases signed with ⟨rfl, rfl⟩ | ⟨rfl, rfl⟩ | ⟨rfl, rfl⟩ | ⟨rfl, rfl⟩ | ⟨rfl, rfl⟩ <;> rfl
  rw [gatewayWrites, lastWrite_append, signs, last, Option.some_or]

/-- A header that is forced once is left with its value. -/
theorem lastWrite_forced_once {name value : String} (free : reservedHeaders.contains name = false)
    (distinct : (ctx.forcedHeaders.map (·.1)).Nodup) (forced : (name, value) ∈ ctx.forcedHeaders) :
    lastWrite name (ctx.gatewayWrites signer nowUnix method passthrough) = some [utf8 value] := by
  have found : ctx.forcedHeaders.reverse.lookup name = some value := by
    cases held : ctx.forcedHeaders.reverse.lookup name with
    | none =>
      have absent := List.lookup_eq_none_iff.mp held (name, value) (List.mem_reverse.mpr forced)
      simp at absent
    | some other =>
      obtain ⟨before, after, whole, -⟩ := List.lookup_eq_some_iff.mp held
      have listed : (name, other) ∈ ctx.forcedHeaders := by
        rw [← List.mem_reverse, whole]
        exact List.mem_append_right _ List.mem_cons_self
      exact congrArg some (Prod.mk.inj (List.inj_on_of_nodup_map distinct listed forced rfl)).2
  rw [lastWrite_gateway signer nowUnix method passthrough free, laterWrite, found, Option.some_or, Option.map_some]

theorem forcedNames_toLower {provider : Config.Provider} : ∀ name ∈ forcedNames provider, name.toLower = name := by
  intro name listed
  obtain ⟨header, -, rfl⟩ := List.mem_map.mp listed
  exact toLower_toLower header.name

/-- What is signed stands under lower-case names. -/
theorem signedNames_toLower {provider : Config.Provider} :
    ∀ name ∈ fixedNames ++ forcedNames provider, name.toLower = name := by
  intro name listed
  rcases List.mem_append.mp listed with fixed | forced
  · have lower : ∀ name ∈ fixedNames, name.toLower = name := by decide +kernel
    exact lower name fixed
  · exact forcedNames_toLower name forced

/-- The names that are signed, when the forced headers have the names that the provider gives. -/
theorem signParams_names {provider : Config.Provider} (names : ctx.forcedHeaders.map (·.1) = forcedNames provider) :
    (ctx.signParams signer nowUnix method aws).headers.map (·.1) = fixedNames ++ forcedNames provider := by
  have forced : (ctx.forcedHeaders.map fun header => (header.1.toLower, header.2)).map (·.1) = forcedNames provider := by
    calc (ctx.forcedHeaders.map fun header => (header.1.toLower, header.2)).map (·.1)
      _ = (ctx.forcedHeaders.map (·.1)).map String.toLower := by rw [List.map_map, List.map_map]; rfl
      _ = (forcedNames provider).map String.toLower := by rw [names]
      _ = forcedNames provider := (List.map_congr_left forcedNames_toLower).trans (List.map_id _)
  rw [signParams, List.map_append, fixedHeaders_names]
  exact congrArg (fixedNames ++ ·) forced

theorem signParams_toLower {provider : Config.Provider} (names : ctx.forcedHeaders.map (·.1) = forcedNames provider) :
    (ctx.signParams signer nowUnix method aws).headers.map (fun header => header.1.toLower) =
      fixedNames ++ forcedNames provider := by
  have named : (ctx.signParams signer nowUnix method aws).headers.map (·.1) = fixedNames ++ forcedNames provider :=
    signParams_names names
  refine (List.map_congr_left fun header listed => ?_).trans named
  have among : header.1 ∈ fixedNames ++ forcedNames provider := named ▸ List.mem_map_of_mem listed
  exact signedNames_toLower header.1 among

/-- Every signed header is written last under its name, when the forced headers have different names. -/
theorem lastWrite_of_signed {provider : Config.Provider} (signs : ctx.aws = some aws)
    (names : ctx.forcedHeaders.map (·.1) = forcedNames provider)
    (free : ∀ forced ∈ forcedNames provider, reservedHeaders.contains forced = false)
    (distinct : (forcedNames provider).Nodup) {name value : String}
    (signed : (name, value) ∈ (ctx.signParams signer nowUnix method aws).headers) :
    lastWrite name (ctx.gatewayWrites signer nowUnix method passthrough) = some [utf8 value] := by
  rcases List.mem_append.mp signed with fixed | forced
  · exact lastWrite_signed signs (List.mem_cons_of_mem _ fixed)
  · obtain ⟨⟨written, value⟩, listed, same⟩ := List.mem_map.mp forced
    obtain ⟨rfl, rfl⟩ := Prod.mk.inj same
    have among : written ∈ forcedNames provider := names ▸ List.mem_map_of_mem listed
    rw [forcedNames_toLower written among]
    exact lastWrite_forced_once (free written among) (names ▸ distinct) listed

/-- Every signed header is put into the request. -/
theorem put_of_signed {provider : Config.Provider} (signs : ctx.aws = some aws)
    (names : ctx.forcedHeaders.map (·.1) = forcedNames provider) {name value : String}
    (signed : (name, value) ∈ (ctx.signParams signer nowUnix method aws).headers) :
    put name value ∈ ctx.gatewayWrites signer nowUnix method passthrough := by
  rw [gatewayWrites, signs]
  rcases List.mem_append.mp signed with fixed | forced
  · refine List.mem_append_right _ ?_
    simp only [fixedHeaders, List.mem_cons, List.not_mem_nil, or_false, Prod.mk.injEq] at fixed
    rcases fixed with ⟨rfl, rfl⟩ | ⟨rfl, rfl⟩ | ⟨rfl, rfl⟩ | ⟨rfl, rfl⟩ <;> simp [signBedrockRequest]
  · obtain ⟨⟨written, value⟩, listed, same⟩ := List.mem_map.mp forced
    obtain ⟨rfl, rfl⟩ := Prod.mk.inj same
    rw [forcedNames_toLower written (names ▸ List.mem_map_of_mem listed)]
    have put_ : put written value ∈ ctx.forcedHeaders.map fun (name, value) => put name value :=
      List.mem_map.mpr ⟨(written, value), listed, rfl⟩
    simp only [List.mem_append]
    tauto

end HeaderCtx

/-! ### The request on the wire -/

section

open Attribution (Binds Resolution)
open HeaderCtx (fixedNames)

variable {Expr : Type}

/-- The request carries the signature; and what is signed is what is sent, as the server sees it, exactly when no two of
    the headers that the provider forces have one name, whatever its letter case. -/
theorem signed_as_sent_iff (lib : Config.Compilers Expr) (cfg : Config) (finalized : Config.Finalized Expr)
    (accepted : Config.finalize lib cfg = .ok finalized) (route : Config.Route) (provider : Config.Provider)
    (policy : Config.EffectivePolicy Expr) (resolution : Resolution) (ctx : HeaderCtx)
    (binds : Binds cfg route provider policy resolution ctx) (aws : AwsSigning) (signs : ctx.aws = some aws)
    (accepts : String → List UInt8 → Bool) (tokens : ∀ name value, accepts name value = true → ';' ∉ name.toList)
    (hash : SignatureHash) (amzDate : Nat → String) (nowUnix : Nat) (head : RequestHead) (headers : HeaderMap)
    (forwarded : ctx.upstreamRequestFilter accepts (sigV4 hash amzDate) nowUnix head = some headers) :
    let params := ctx.signParams (sigV4 hash amzDate) nowUnix head.method aws
    Headers.values "authorization" headers =
        [utf8 (params.authorization hash aws.accessKeyId aws.secretAccessKey)] ∧
      (SignedAsSent params (forcedNames provider) headers ↔ (forcedNames provider).Nodup) := by
  intro params
  obtain ⟨clean, -⟩ := Config.finalize_ok accepted
  have free := forcedNames_free clean binds.known
  have forcedNamed := binds.forcedHeaders_names
  have names : params.headers.map (·.1) = fixedNames ++ forcedNames provider := HeaderCtx.signParams_names forcedNamed
  have lower : ∀ header ∈ params.headers, header.1.toLower = header.1 := fun header listed =>
    HeaderCtx.signedNames_toLower _ (names ▸ List.mem_map_of_mem listed)
  have lowerNames : params.headers.map (fun header => header.1.toLower) = fixedNames ++ forcedNames provider :=
    HeaderCtx.signParams_toLower forcedNamed
  obtain ⟨between, -, later⟩ := Option.bind_eq_some_iff.mp forwarded
  refine ⟨?_, fun sent => ?_, fun distinct => ?_⟩
  · rw [Headers.values_writeAll later, HeaderCtx.lastWrite_signed signs List.mem_cons_self, Option.getD_some]
    rfl
  · have apart := SignParams.names_sorted_iff.mp sent.names
    rw [lowerNames] at apart
    exact apart.of_append_right
  · have carried : ∀ header ∈ params.headers, Headers.values header.1 headers = [utf8 header.2] := fun header signed => by
      rw [Headers.values_writeAll later, HeaderCtx.lastWrite_of_signed signs forcedNamed free distinct signed,
        Option.getD_some]
    have plain : ∀ header ∈ params.headers, ';' ∉ header.1.toList := fun header signed =>
      tokens _ _ (Headers.accepts_of_writeAll later (HeaderCtx.put_of_signed signs forcedNamed signed))
    have source : ∀ header ∈ params.sortedHeaders, ∃ sent ∈ params.headers, header = (sent.1, Text.trim sent.2) :=
      fun _ listed => SignParams.sortedHeaders_source lower listed
    have dated : Headers.values "x-amz-date" headers = [utf8 (amzDate nowUnix)] :=
      carried ("x-amz-date", amzDate nowUnix) (List.mem_append_left _ (by simp [HeaderCtx.fixedHeaders, sigV4]))
    have hashed : Headers.values "x-amz-content-sha256" headers = [utf8 params.payloadHash] :=
      carried ("x-amz-content-sha256", params.payloadHash) (List.mem_append_left _ (by
        simp [HeaderCtx.fixedHeaders, params, HeaderCtx.signParams]))
    refine ⟨SignParams.names_sorted_iff.mpr ?_, fun header listed => ?_, fun name forced => ?_, ?_⟩
    · rw [lowerNames]
      refine List.nodup_append.mpr ⟨by decide, distinct, fun name fixed forced among same => ?_⟩
      have owned := HeaderCtx.fixed_reserved name fixed
      rw [same, free forced among] at owned
      cases owned
    · obtain ⟨sent, signed, rfl⟩ := source header listed
      exact ⟨sent.2, carried sent signed, rfl⟩
    · refine (SignParams.sortedNames_perm params).mem_iff.mpr ?_
      rw [lowerNames]
      exact List.mem_append_right _ forced
    · refine receivedParams_canonical (fun header listed => ?_) ?_ (fun header listed => ?_)
        (receivedHeader_of_values dated) ?_
      · obtain ⟨sent, signed, rfl⟩ := source header listed
        exact plain sent signed
      · intro none
        have all := SignParams.sortedNames_perm params
        rw [none, lowerNames] at all
        exact absurd all.nil_eq (by simp [fixedNames])
      · obtain ⟨sent, signed, rfl⟩ := source header listed
        exact receivedHeader_of_values (carried sent signed)
      · rw [receivedHeader_of_values hashed]
        exact congrArg some (trim_of_plain (hex_plain _))

/-! ### Forced headers on a request that is signed -/

/-- A provider that assumes the role of a team, and forces headers. -/
def forcingProvider (forced : List ForcedHeader) : Config.Provider := { gatedProvider with inject := some ⟨forced, []⟩ }

def forcingConfig (forced : List ForcedHeader) : Config :=
  { gatedConfig with providers := (∅ : Named Config.Provider).insert "b" (forcingProvider forced) }

def forcingHeld (forced : List ForcedHeader) : Config.EffectivePolicy Empty × Resolution :=
  Attribution.attributed noTexts noValues (Config.compileRoute noExpressions (forcingConfig forced) gatedRoute) none
    teamHead "/" none

def teamCredentials : AwsSigning := ⟨"ASIA", "secret", "session", "us-east-1"⟩

/-- What the request of the team carries, with what the headers resolve to. -/
def forcingCtx (forced : List ForcedHeader) (resolved : List (String × String)) : HeaderCtx :=
  ⟨(forcingHeld forced).1.headers, (forcingHeld forced).2.tags, [], [], .bedrock, gatedProvider.upstream, none, none,
    some teamCredentials, ⟨none, some ⟨resolved, []⟩, [], some (utf8 "[]")⟩, "/model/m/converse", ""⟩

theorem forcingCtx_binds {forced : List ForcedHeader} {resolved : List (String × String)}
    (held : (forcingHeld forced).2.ok = true)
    (made : resolveInjection ⟨forced, []⟩ (forcingHeld forced).2.tags = .ok ⟨resolved, []⟩) :
    Binds (forcingConfig forced) gatedRoute (forcingProvider forced) (forcingHeld forced).1 (forcingHeld forced).2
      (forcingCtx forced resolved) where
  known := by simp [forcingConfig, gatedRoute]
  resolved := held
  attrHeaders := rfl
  tags := rfl
  kind := rfl
  upstream := rfl
  vertexHost := rfl
  gcpBearer := rfl
  aws := rfl
  forced := ⟨_, made, rfl⟩

/-- The characters of a header name. -/
def tokenName (name : String) (_ : List UInt8) : Bool :=
  name ≠ "" && name.toList.all fun c => c.isAlphanum || "!#$%&'*+-.^_|~".toList.contains c

theorem tokenName_plain (name : String) (value : List UInt8) (token : tokenName name value = true) : ';' ∉ name.toList := by
  simp only [tokenName, Bool.and_eq_true, List.all_eq_true] at token
  intro inside
  exact absurd (token.2 ';' inside) (by decide)

def teamSigner : Signer := sigV4 sha256Hash fun _ => "20260801T120000Z"

/-- The header of the pinned environment. -/
def envHeader : List ForcedHeader := [⟨"X-Env", .spec none (some "env")⟩]

/-- The environment is signed as it is sent. -/
theorem environment_is_signed :
    ∃ headers, (forcingCtx envHeader [("x-env", "prod")]).upstreamRequestFilter tokenName teamSigner 0 teamHead =
        some headers ∧
      SignedAsSent ((forcingCtx envHeader [("x-env", "prod")]).signParams teamSigner 0 "POST" teamCredentials) ["x-env"]
        headers := by
  have accepted : Config.finalize noExpressions (forcingConfig envHeader) = .ok ⟨forcingConfig envHeader,
      [(gatedRoute, Config.compileRoute noExpressions (forcingConfig envHeader) gatedRoute)]⟩ := if_pos (by decide +kernel)
  obtain ⟨headers, forwarded⟩ : ∃ headers, (forcingCtx envHeader [("x-env", "prod")]).upstreamRequestFilter tokenName
      teamSigner 0 teamHead = some headers := Option.isSome_iff_exists.mp (by decide +kernel)
  have names : forcedNames (forcingProvider envHeader) = ["x-env"] := by decide +kernel
  have sent := (signed_as_sent_iff noExpressions (forcingConfig envHeader) _ accepted gatedRoute (forcingProvider envHeader)
    _ _ _ (forcingCtx_binds (by decide +kernel) (by decide +kernel)) teamCredentials rfl tokenName tokenName_plain
    sha256Hash _ 0 teamHead headers forwarded).2.mpr (by rw [names]; decide)
  rw [names] at sent
  exact ⟨headers, forwarded, sent⟩

/-- One header, under two spellings of its name. -/
def guardHeaders : List ForcedHeader := [⟨"X-Guard", .bare "strict"⟩, ⟨"x-guard", .bare "lax"⟩]

/-- Two forced headers that differ in letter case only are accepted, and both are signed although one of them is sent. -/
theorem guard_is_signed_twice :
    ¬ ∀ (lib : Config.Compilers Empty) (cfg : Config) (finalized : Config.Finalized Empty) (route : Config.Route)
        (provider : Config.Provider) (policy : Config.EffectivePolicy Empty) (resolution : Resolution) (ctx : HeaderCtx)
        (aws : AwsSigning) (accepts : String → List UInt8 → Bool) (hash : SignatureHash) (amzDate : Nat → String)
        (nowUnix : Nat) (head : RequestHead) (headers : HeaderMap),
      Config.finalize lib cfg = .ok finalized → Binds cfg route provider policy resolution ctx → ctx.aws = some aws →
        (∀ name value, accepts name value = true → ';' ∉ name.toList) →
          ctx.upstreamRequestFilter accepts (sigV4 hash amzDate) nowUnix head = some headers →
            SignedAsSent (ctx.signParams (sigV4 hash amzDate) nowUnix head.method aws) (forcedNames provider) headers := by
  intro claimed
  have accepted : Config.finalize noExpressions (forcingConfig guardHeaders) = .ok ⟨forcingConfig guardHeaders,
      [(gatedRoute, Config.compileRoute noExpressions (forcingConfig guardHeaders) gatedRoute)]⟩ :=
    if_pos (by decide +kernel)
  obtain ⟨headers, forwarded⟩ : ∃ headers, (forcingCtx guardHeaders [("x-guard", "strict"), ("x-guard",
      "lax")]).upstreamRequestFilter tokenName teamSigner 0 teamHead = some headers :=
    Option.isSome_iff_exists.mp (by decide +kernel)
  have sent := claimed noExpressions (forcingConfig guardHeaders) _ gatedRoute (forcingProvider guardHeaders) _ _ _
    teamCredentials tokenName sha256Hash _ 0 teamHead headers accepted
    (forcingCtx_binds (by decide +kernel) (by decide +kernel)) rfl tokenName_plain forwarded
  have names : forcedNames (forcingProvider guardHeaders) = ["x-guard", "x-guard"] := by decide +kernel
  have forcedNamed : (forcingCtx guardHeaders [("x-guard", "strict"), ("x-guard", "lax")]).forcedHeaders.map (·.1) =
      forcedNames (forcingProvider guardHeaders) := names.symm
  have apart := SignParams.names_sorted_iff.mp sent.names
  rw [HeaderCtx.signParams_toLower forcedNamed, names] at apart
  exact absurd apart (by decide)

end

end SmallGateway
