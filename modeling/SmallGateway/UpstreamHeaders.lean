import Mathlib.Data.List.Nodup
import SmallGateway.CallerRaw
import SmallGateway.Lib.Headers

/-!
The headers of a request on its way to the provider (`upstream_request_filter` in `gatewayd/src/proxy.rs`). The names
that the operator gave to attribution keys are stripped and carry what the keys resolved to; then come the headers of
the modules, of transport, of the credentials, and those that the operator forces. An accepted config keeps the names
apart from each other and from those of transport and credentials, but not from a forced header, nor from
`accept-encoding`, which is overwritten (`attribution_headers_iff`). What the HTTP library accepts as a header and how
a request is signed are parameters.
-/

namespace SmallGateway

open Config (Compilers EffectivePolicy Finalized Route CompiledRoute Upstream)

/-- The bytes of a text. -/
def utf8 (text : String) : List UInt8 := text.toUTF8.data.toList

theorem utf8_inj {text other : String} : utf8 text = utf8 other ↔ text = other := by
  refine ⟨fun same => ?_, congrArg utf8⟩
  have arrays : text.toUTF8.data = other.toUTF8.data := Array.toList_inj.mp same
  exact String.toByteArray_inj.mp (ByteArray.ext arrays)

/-- The headers of a request, names in lower case. -/
abbrev HeaderMap := List (String × List UInt8)

abbrev HeaderWrite := Headers.Write String (List UInt8)

/-- A text in the place of the values of a name. -/
def put (name text : String) : HeaderWrite := .insert name (utf8 text)

/-! ### Signing -/

/-- The credentials of a session, and the region they are for. -/
structure AwsSigning where
  accessKeyId : String
  secretAccessKey : String
  sessionToken : String
  region : String

/-- What a signature covers. -/
structure SignParams where
  method : String
  path : String
  query : String
  region : String
  service : String
  headers : List (String × String)
  payloadHash : String
  timestamp : String

/-- The signature scheme: the form of a date, the hash of a payload, and the authorization that an access key and its
    secret give. -/
structure Signer where
  amzDate : Nat → String
  sha256Hex : List UInt8 → String
  authorization : SignParams → String → String → String

/-! ### The filter -/

/-- What a request carries from the request filter to the filter of the upstream request. -/
structure HeaderCtx where
  attrHeaders : Named String
  tags : List Tag
  wasmHeaderSet : List (String × String)
  wasmHeaderRemove : List String
  kind : ProviderKind
  upstream : Upstream
  vertexHost : Option String
  gcpBearer : Option String
  aws : Option AwsSigning
  body : BodyCtx
  uriPath : String
  uriQuery : String

namespace HeaderCtx

variable (ctx : HeaderCtx)

def forcedHeaders : List (String × String) := (ctx.body.forced.map (·.headers)).getD []

/-- Every named header is stripped, and then carries the tag of its key. -/
def attributionWrites : List HeaderWrite :=
  (ctx.attrHeaders.toList.map fun (_, name) => .remove name) ++
    ctx.tags.filterMap fun tag => ctx.attrHeaders[tag.key]?.map fun name => put name tag.value

def wasmWrites : List HeaderWrite :=
  (ctx.wasmHeaderRemove.map fun name => .remove name.toLower) ++
    ctx.wasmHeaderSet.map fun (name, value) => put name.toLower value

def gatewayInjectedAuth : Bool := ctx.forcedHeaders.any fun (name, _) => name.toLower == "authorization"

/-- The caller has signed the request, and its signature may bind any header. -/
def callerSigv4 (headers : HeaderMap) : Bool :=
  ((Headers.values "authorization" headers).head?.bind headerText).any fun value =>
    "AWS4-HMAC-SHA256".toList.isPrefixOf (value.toList.dropWhile Text.isWhitespace)

def callerSignedPassthrough (headers : HeaderMap) : Bool :=
  ctx.kind == .bedrock && ctx.aws.isNone && ctx.gcpBearer.isNone && callerSigv4 headers && !ctx.gatewayInjectedAuth

/-- The host of the destination, its port unless it is a standard one. -/
def hostValue : String :=
  let host := ctx.vertexHost.getD ctx.upstream.host
  let host := if host.toList.contains ':' && host.toList.head? != some '[' then "[" ++ host ++ "]" else host
  if ctx.upstream.port = 443 ∨ ctx.upstream.port = 80 then host else host ++ ":" ++ toString ctx.upstream.port

/-- The body will be rewritten, and its length is not known yet. -/
def rewritesBody : Bool :=
  ctx.body.signedBody.isNone && (ctx.body.vertexLabels.isSome || !ctx.body.forcedBody.isEmpty)

/-- The headers of a signed request. The signature covers the forced headers. -/
def signBedrockRequest (signer : Signer) (nowUnix : Nat) (method : String) (aws : AwsSigning) : List HeaderWrite :=
  let host := ctx.upstream.host ++ ":" ++ toString ctx.upstream.port
  let timestamp := signer.amzDate nowUnix
  let payloadHash := signer.sha256Hex (ctx.body.signedBody.getD [])
  let signedHeaders :=
    [("host", host), ("x-amz-content-sha256", payloadHash), ("x-amz-date", timestamp),
      ("x-amz-security-token", aws.sessionToken)] ++
    ctx.forcedHeaders.map fun (name, value) => (name.toLower, value)
  let params : SignParams :=
    ⟨method, ctx.uriPath, ctx.uriQuery, aws.region, "bedrock", signedHeaders, payloadHash, timestamp⟩
  [put "host" host, put "x-amz-date" timestamp, put "x-amz-security-token" aws.sessionToken,
    put "x-amz-content-sha256" payloadHash,
    put "authorization" (signer.authorization params aws.accessKeyId aws.secretAccessKey)]

/-- What the gateway writes after the headers of attribution and of the modules. -/
def gatewayWrites (signer : Signer) (nowUnix : Nat) (method : String) (passthrough : Bool) : List HeaderWrite :=
  (if passthrough then [] else [put "accept-encoding" "identity"]) ++
  (match ctx.gcpBearer with
    | none => []
    | some bearer => [put "authorization" ("Bearer " ++ bearer)]) ++
  (if passthrough then [] else [put "host" ctx.hostValue]) ++
  (ctx.forcedHeaders.map fun (name, value) => put name value) ++
  (if ctx.rewritesBody then [.remove "content-length", put "transfer-encoding" "chunked"] else []) ++
  (match ctx.body.signedBody with
    | none => []
    | some body => [.remove "transfer-encoding", put "content-length" (toString body.length)]) ++
  (match ctx.aws with
    | none => []
    | some aws => ctx.signBedrockRequest signer nowUnix method aws)

variable (accepts : String → List UInt8 → Bool)

/-- The headers that go upstream. A header that is not accepted stops the request. -/
def upstreamRequestFilter (signer : Signer) (nowUnix : Nat) (head : RequestHead) : Option HeaderMap :=
  (Headers.writeAll accepts head.headers (ctx.attributionWrites ++ ctx.wasmWrites)).bind fun headers =>
    Headers.writeAll accepts headers
      (ctx.gatewayWrites signer nowUnix head.method (ctx.callerSignedPassthrough headers))

end HeaderCtx

/-! ### The names of an accepted config -/

namespace Config

/-- The names that pass the check are in lower case, not reserved, and each stands for one key. -/
theorem checkHeaderNames_nil {ctx : String} {seen entries : List (String × String)}
    (none : checkHeaderNames ctx seen entries = []) :
    (∀ entry ∈ entries, reservedAttrHeaders.contains entry.2 = false ∧ seen.lookup entry.2 = .none) ∧
      (entries.map (·.2)).Nodup := by
  induction entries generalizing seen with
  | nil => simp
  | cons first rest ih =>
    obtain ⟨key, name⟩ := first
    simp only [checkHeaderNames, List.append_eq_nil_iff, refuseIf_nil] at none
    obtain ⟨⟨⟨-, reserved⟩, unseen⟩, others⟩ := none
    obtain ⟨later, distinct⟩ := ih others
    have fresh : seen.lookup name = .none := by
      cases found : seen.lookup name with
      | none => rfl
      | some previous => simp [found] at unseen
    refine ⟨fun entry inside => ?_, ?_⟩
    · rcases List.mem_cons.mp inside with rfl | inside
      · exact ⟨reserved, fresh⟩
      · obtain ⟨free, unlisted⟩ := later entry inside
        refine ⟨free, ?_⟩
        rw [List.lookup_cons] at unlisted
        split at unlisted
        · cases unlisted
        · exact unlisted
    · rw [List.map_cons, List.nodup_cons]
      refine ⟨fun inside => ?_, distinct⟩
      obtain ⟨entry, listed, same⟩ := List.mem_map.mp inside
      have unlisted := (later entry listed).2
      rw [same, List.lookup_cons] at unlisted
      simp at unlisted

/-- The names that a policy gives to keys. -/
structure NamesApart {Expr : Type} (policy : EffectivePolicy Expr) : Prop where
  free : ∀ key name : String, policy.headers[key]? = some name → reservedAttrHeaders.contains name = false
  distinct : ∀ key other name : String, policy.headers[key]? = some name → policy.headers[other]? = some name →
    key = other

theorem accepted_namesApart {Expr : Type} {lib : Compilers Expr} {cfg : Config} {finalized : Finalized Expr}
    (accepted : finalize lib cfg = .ok finalized) {route : Route} {compiled : CompiledRoute Expr}
    (listed : (route, compiled) ∈ finalized.routes) {policy : EffectivePolicy Expr}
    (serves : compiled.Serves policy) : NamesApart policy := by
  obtain ⟨ctx, passed⟩ := accepted_policy accepted listed serves
  simp only [checkPolicy, validateAttrHeaders, List.append_eq_nil_iff] at passed
  obtain ⟨names, distinct⟩ := checkHeaderNames_nil passed.1.2.1.1
  refine ⟨fun key name found => ?_, fun key other name found also => ?_⟩
  · exact (names (key, name) (Std.TreeMap.mem_toList_iff_getElem?_eq_some.mpr found)).1
  · have first := Std.TreeMap.mem_toList_iff_getElem?_eq_some.mpr found
    have second := Std.TreeMap.mem_toList_iff_getElem?_eq_some.mpr also
    have same := List.inj_on_of_nodup_map distinct first second rfl
    exact congrArg Prod.fst same

end Config

/-! ### The tags of a request -/

namespace Attribution

variable {Expr : Type} {json : JsonText} {policy : EffectivePolicy Expr}
  {callerValue derivedValue : String → Option String} {claims : Option Claims}

/-- Every tag is the one its key resolves to. -/
theorem tagFor_of_mem {tag : Tag} (inside : tag ∈ (resolve json policy callerValue claims derivedValue).tags) :
    tagFor (resolve json policy callerValue claims derivedValue).tags tag.key = some tag := by
  obtain ⟨key, known, resolved⟩ := List.mem_filterMap.mp inside
  rw [resolve_tagFor, resolveKey_key resolved, if_pos (Std.TreeSet.mem_toList.mp known), resolved]

end Attribution

namespace HeaderCtx

open Headers (lastWrite values values_writeAll lastWrite_append lastWrite_eq_none lastWrite_eq_some)

variable {ctx : HeaderCtx} {name : String}

/-- The headers of a policy, and the tags of its resolution. -/
structure Carries (ctx : HeaderCtx) (headers : Named String) (value : String → Option String) : Prop where
  attrHeaders : ctx.attrHeaders = headers
  tags : ∀ tag ∈ ctx.tags, value tag.key = some tag.value
  listed : ∀ key text, value key = some text → ∃ tag ∈ ctx.tags, tag.key = key ∧ tag.value = text

/-- A named header is left with the value of its key, or without any. -/
theorem lastWrite_attribution {headers : Named String} {value : String → Option String} {key : String}
    (carries : ctx.Carries headers value) (named : headers[key]? = some name)
    (distinct : ∀ other, headers[other]? = some name → other = key) :
    lastWrite name ctx.attributionWrites = some ((value key).map utf8).toList := by
  have stripped : lastWrite name (ctx.attrHeaders.toList.map fun (_, name) => (.remove name : HeaderWrite)) =
      some [] := by
    refine lastWrite_eq_some ?_ fun write inside _ => ?_
    · refine ⟨_, List.mem_map.mpr ⟨(key, name), ?_, rfl⟩, rfl⟩
      rw [carries.attrHeaders]
      exact Std.TreeMap.mem_toList_iff_getElem?_eq_some.mpr named
    · obtain ⟨entry, -, rfl⟩ := List.mem_map.mp inside
      rfl
  rw [attributionWrites, lastWrite_append, stripped]
  have written : ∀ write ∈ (ctx.tags.filterMap fun tag => ctx.attrHeaders[tag.key]?.map fun name =>
      put name tag.value), write.name = name → ∃ tag ∈ ctx.tags, tag.key = key ∧ write = put name tag.value := by
    intro write inside same
    obtain ⟨tag, listed, found⟩ := List.mem_filterMap.mp inside
    obtain ⟨other, mapped, rfl⟩ := Option.map_eq_some_iff.mp found
    obtain rfl : other = name := same
    exact ⟨tag, listed, distinct tag.key (carries.attrHeaders ▸ mapped), rfl⟩
  cases resolved : value key with
  | none =>
    rw [lastWrite_eq_none fun write inside same => ?_]
    · rfl
    · obtain ⟨tag, listed, rfl, -⟩ := written write inside same
      rw [carries.tags tag listed] at resolved
      cases resolved
  | some text =>
    have assigned : lastWrite name (ctx.tags.filterMap fun tag => ctx.attrHeaders[tag.key]?.map fun name =>
        put name tag.value) = some [utf8 text] := by
      refine lastWrite_eq_some ?_ fun write inside same => ?_
      · obtain ⟨tag, listed, rfl, rfl⟩ := carries.listed key text resolved
        refine ⟨put name tag.value, List.mem_filterMap.mpr ⟨tag, listed, ?_⟩, rfl⟩
        rw [carries.attrHeaders, named]
        rfl
      · obtain ⟨tag, listed, rfl, rfl⟩ := written write inside same
        rw [carries.tags tag listed] at resolved
        obtain rfl := Option.some.inj resolved
        rfl
    rw [assigned]
    rfl

/-- A forced header is left with the last value that is forced on it. -/
theorem lastWrite_forced (forced : List (String × String)) :
    lastWrite name (forced.map fun (name, value) => put name value) =
      (forced.reverse.lookup name).map fun value => [utf8 value] := by
  induction forced with
  | nil => rfl
  | cons first rest ih =>
    obtain ⟨other, value⟩ := first
    rw [List.map_cons, lastWrite, ih, List.reverse_cons, List.lookup_append, List.lookup_singleton]
    by_cases same : other = name
    · subst same
      cases rest.reverse.lookup other <;> simp [put, Headers.Write.name, Headers.Write.leaves]
    · cases rest.reverse.lookup name <;> simp [put, Headers.Write.name, same, Ne.symm same]

/-- What is written later on a named header: the last value forced on it, else the coding that the gateway asks for. -/
def laterWrite (ctx : HeaderCtx) (passthrough : Bool) (name : String) : Option String :=
  (ctx.forcedHeaders.reverse.lookup name).or
    (if name = "accept-encoding" ∧ passthrough = false then some "identity" else none)

/-- What cannot be forced cannot carry attribution. -/
theorem free_of_attr (free : Config.reservedAttrHeaders.contains name = false) : reservedHeaders.contains name = false := by
  simp only [Config.reservedAttrHeaders, List.contains_cons, Bool.or_eq_false_iff, beq_eq_false_iff_ne, ne_eq] at free
  simp [reservedHeaders, free]

/-- Of what the gateway writes later, a name that is not reserved sees the forced headers and the coding only. -/
theorem lastWrite_gateway (signer : Signer) (nowUnix : Nat) (method : String) (passthrough : Bool)
    (free : reservedHeaders.contains name = false) :
    lastWrite name (ctx.gatewayWrites signer nowUnix method passthrough) =
      (ctx.laterWrite passthrough name).map fun value => [utf8 value] := by
  simp only [reservedHeaders, List.contains_cons, Bool.or_eq_false_iff, beq_eq_false_iff_ne, ne_eq] at free
  obtain ⟨host, authorization, contentLength, transferEncoding, date, token, sha, -⟩ := free
  have signed : lastWrite name (match ctx.aws with
      | none => []
      | some aws => ctx.signBedrockRequest signer nowUnix method aws) = none := by
    cases ctx.aws <;> simp [signBedrockRequest, lastWrite, put, Headers.Write.name, Ne.symm, *]
  have framed : lastWrite name (match ctx.body.signedBody with
      | none => []
      | some body => [.remove "transfer-encoding", put "content-length" (toString body.length)]) = none := by
    cases ctx.body.signedBody <;> simp [lastWrite, put, Headers.Write.name, Ne.symm, *]
  have chunked : lastWrite name (if ctx.rewritesBody then
      [.remove "content-length", put "transfer-encoding" "chunked"] else []) = none := by
    cases ctx.rewritesBody <;> simp [lastWrite, put, Headers.Write.name, Ne.symm, *]
  have routed : lastWrite name (if passthrough then [] else [put "host" ctx.hostValue]) = none := by
    cases passthrough <;> simp [lastWrite, put, Headers.Write.name, Ne.symm, *]
  have minted : lastWrite name (match ctx.gcpBearer with
      | none => []
      | some bearer => [put "authorization" ("Bearer " ++ bearer)]) = none := by
    cases ctx.gcpBearer <;> simp [lastWrite, put, Headers.Write.name, Ne.symm, *]
  have coded : lastWrite name (if passthrough then [] else [put "accept-encoding" "identity"]) =
      (if name = "accept-encoding" ∧ passthrough = false then some "identity" else none).map fun value =>
        [utf8 value] := by
    cases passthrough <;>
      simp [lastWrite, put, Headers.Write.name, Headers.Write.leaves, eq_comm (b := name), apply_ite]
  simp only [gatewayWrites, lastWrite_append, signed, framed, chunked, routed, minted, coded, lastWrite_forced,
    Option.none_or, laterWrite]
  cases ctx.forcedHeaders.reverse.lookup name <;> simp

/-- The headers that the caller signed by are not those of attribution. -/
theorem values_authorization {headers : HeaderMap} {head : RequestHead} {accepts : String → List UInt8 → Bool}
    (free : ∀ key name : String, ctx.attrHeaders[key]? = some name → Config.reservedAttrHeaders.contains name = false)
    (written : Headers.writeAll accepts head.headers ctx.attributionWrites = some headers) :
    values "authorization" headers = values "authorization" head.headers := by
  rw [values_writeAll written, lastWrite_eq_none fun write inside same => ?_]
  · rfl
  · have named : ∃ key : String, ctx.attrHeaders[key]? = some "authorization" := by
      rcases List.mem_append.mp inside with stripped | assigned
      · obtain ⟨entry, listed, rfl⟩ := List.mem_map.mp stripped
        have found := Std.TreeMap.mem_toList_iff_getElem?_eq_some.mp listed
        exact ⟨entry.1, same ▸ found⟩
      · obtain ⟨tag, -, found⟩ := List.mem_filterMap.mp assigned
        obtain ⟨other, mapped, rfl⟩ := Option.map_eq_some_iff.mp found
        obtain rfl : other = "authorization" := same
        exact ⟨tag.key, mapped⟩
    obtain ⟨key, found⟩ := named
    exact absurd (free key _ found) (by decide)

theorem callerSignedPassthrough_congr {headers others : HeaderMap}
    (same : values "authorization" headers = values "authorization" others) :
    ctx.callerSignedPassthrough headers = ctx.callerSignedPassthrough others := by
  rw [callerSignedPassthrough, callerSignedPassthrough, callerSigv4, callerSigv4, same]

end HeaderCtx

/-! ### Attribution headers upstream -/

namespace Attribution

open HeaderCtx (laterWrite)

variable {Expr : Type}

/-- What the request filter binds for a request that is held to a policy and resolved, on a route to a provider. -/
structure Binds (cfg : Config) (route : Route) (provider : Config.Provider) (policy : EffectivePolicy Expr)
    (resolution : Resolution) (ctx : HeaderCtx) : Prop where
  known : cfg.providers[route.provider]? = some provider
  resolved : resolution.ok = true
  attrHeaders : ctx.attrHeaders = policy.headers
  tags : ctx.tags = resolution.tags
  kind : ctx.kind = provider.kind
  upstream : ctx.upstream = provider.upstream
  vertexHost : ctx.vertexHost.isSome = provider.locations.isSome
  gcpBearer : ctx.gcpBearer.isSome = provider.auth.isSome
  aws : ctx.aws.isSome = provider.sts.isSome
  forced : match provider.inject with
    | none => ctx.body.forced = none
    | some inject =>
      ∃ resolved, resolveInjection inject resolution.tags = .ok resolved ∧ ctx.body.forced = some resolved

/-- Every header that the operator named for a key carries the value of the key, or is absent when it has none. -/
def Hygienic (policy : EffectivePolicy Expr) (resolution : Resolution) (headers : HeaderMap) : Prop :=
  ∀ key name : String, policy.headers[key]? = some name →
    Headers.values name headers = ((resolution.value key).map utf8).toList

/-- What is written later on a header that the operator named for a key is the value of the key. -/
def Undisturbed (policy : EffectivePolicy Expr) (resolution : Resolution) (ctx : HeaderCtx) (head : RequestHead) :
    Prop :=
  ∀ key name : String, policy.headers[key]? = some name →
    ∀ later, ctx.laterWrite (ctx.callerSignedPassthrough head.headers) name = some later →
      resolution.value key = some later

/-- On a request that the modules leave alone, the headers of attribution go upstream as they were adjudicated exactly
    when nothing else is written on them later. -/
theorem attribution_headers_iff (lib : Compilers Expr) (json : JsonText) (eval : Evaluator Expr) (cfg : Config)
    (finalized : Finalized Expr) (accepted : Config.finalize lib cfg = .ok finalized) (route : Route)
    (compiled : CompiledRoute Expr) (listed : (route, compiled) ∈ finalized.routes) (provider : Config.Provider)
    (head : RequestHead) (path : String) (claims : Option Claims) (policy : EffectivePolicy Expr)
    (resolution : Resolution)
    (held : attributed json eval compiled cfg.apps head path claims = (policy, resolution)) (ctx : HeaderCtx)
    (binds : Binds cfg route provider policy resolution ctx)
    (unmutated : ctx.wasmHeaderSet = [] ∧ ctx.wasmHeaderRemove = []) (accepts : String → List UInt8 → Bool)
    (signer : Signer) (nowUnix : Nat) (headers : HeaderMap)
    (forwarded : ctx.upstreamRequestFilter accepts signer nowUnix head = some headers) :
    Hygienic policy resolution headers ↔ Undisturbed policy resolution ctx head := by
  obtain ⟨serves, same⟩ := resolveWithAppScope_serves json eval compiled cfg.apps
    (callerAttrs head compiled.effective.headers) claims (evalCtx head path claims)
  rw [← attributed, held] at serves same
  dsimp only at serves same
  obtain ⟨free, distinct⟩ := Config.accepted_namesApart accepted listed serves
  have carries : ctx.Carries policy.headers resolution.value := by
    refine ⟨binds.attrHeaders, fun tag inside => ?_, fun key text resolved => ?_⟩
    · rw [binds.tags, same] at inside
      rw [Resolution.value, same, resolvePolicy, tagFor_of_mem inside]
      rfl
    · obtain ⟨tag, found, rfl⟩ := Option.map_eq_some_iff.mp resolved
      exact ⟨tag, binds.tags ▸ List.mem_of_find?_eq_some found, tagFor_key found, rfl⟩
  obtain ⟨between, attribution, later⟩ := Option.bind_eq_some_iff.mp forwarded
  have none : ctx.wasmWrites = [] := by rw [HeaderCtx.wasmWrites, unmutated.1, unmutated.2]; rfl
  rw [none, List.append_nil] at attribution
  rw [HeaderCtx.callerSignedPassthrough_congr (HeaderCtx.values_authorization (binds.attrHeaders ▸ free) attribution)]
    at later
  have left : ∀ key name : String, policy.headers[key]? = some name → Headers.values name headers =
      ((ctx.laterWrite (ctx.callerSignedPassthrough head.headers) name).map fun value => [utf8 value]).getD
        ((resolution.value key).map utf8).toList := by
    intro key name named
    rw [Headers.values_writeAll later,
      HeaderCtx.lastWrite_gateway signer nowUnix head.method _ (HeaderCtx.free_of_attr (free key name named)),
      Headers.values_writeAll attribution, HeaderCtx.lastWrite_attribution carries named fun other also =>
        distinct other key name also named]
    rfl
  refine forall₃_congr fun key name named => ?_
  rw [left key name named]
  cases ctx.laterWrite (ctx.callerSignedPassthrough head.headers) name with
  | none => simp
  | some value =>
    cases resolution.value key with
    | none => simp
    | some own => simp [utf8_inj, eq_comm]

/-! ### Two requests -/

def openAiRoute : Route := ⟨"/", "o", none, none, ⟨⟨[], ∅, ∅, ∅, ∅, ∅, none⟩, [], none⟩⟩

def openAiProvider : Config.Provider := ⟨.openai, ⟨"api.openai.com", 443⟩, none, none, none, none⟩

/-- A config that names a header for one required key. -/
def namingConfig (key header : String) : Config where
  providers := (∅ : Named Config.Provider).insert "o" openAiProvider
  fleet := some ⟨⟨[key], (∅ : Named String).insert key header, ∅, ∅, ∅, ∅, none⟩, [], none⟩
  projects := ∅
  routes := [openAiRoute]
  apps := none
  rejections := ⟨⟨400, "text", "", none⟩, ⟨404, "text", "", none⟩, none, none, none⟩
  jwt := none
  otlp := none
  webhook := none
  wasm := ⟨[], false⟩

def namingAttributed (key header : String) (head : RequestHead) : EffectivePolicy Empty × Resolution :=
  attributed noTexts noValues (Config.compileRoute noExpressions (namingConfig key header) openAiRoute) none head "/"
    none

/-- What a request carries when nothing is forced, minted or signed. -/
def plainCtx (held : EffectivePolicy Empty × Resolution) : HeaderCtx :=
  ⟨held.1.headers, held.2.tags, [], [], .openai, openAiProvider.upstream, none, none, none, ⟨none, none, [], none⟩, "/",
    ""⟩

def noSigner : Signer := ⟨fun _ => "", fun _ => "", fun _ _ _ => ""⟩

theorem plainCtx_binds {key header : String} {head : RequestHead}
    (resolved : (namingAttributed key header head).2.ok = true) :
    Binds (namingConfig key header) openAiRoute openAiProvider (namingAttributed key header head).1
      (namingAttributed key header head).2 (plainCtx (namingAttributed key header head)) :=
  ⟨by simp [namingConfig, openAiRoute], resolved, rfl, rfl, rfl, rfl, rfl, rfl, rfl, rfl⟩

theorem naming_accepted {key header : String}
    (valid : (Config.configErrors noExpressions (namingConfig key header)).isEmpty = true) :
    Config.finalize noExpressions (namingConfig key header) = .ok ⟨namingConfig key header,
      [(openAiRoute, Config.compileRoute noExpressions (namingConfig key header) openAiRoute)]⟩ := if_pos valid

/-- A caller that names its team twice. -/
def twiceHead : RequestHead := ⟨"POST", [("x-team", utf8 "ml"), ("x-team", utf8 "ops")]⟩

/-- The team goes upstream once. -/
theorem team_goes_upstream_once :
    Hygienic (namingAttributed "team" "x-team" twiceHead).1 (namingAttributed "team" "x-team" twiceHead).2
        [("x-team", utf8 "ml"), ("accept-encoding", utf8 "identity"), ("host", utf8 "api.openai.com")] ∧
      (namingAttributed "team" "x-team" twiceHead).2.value "team" = some "ml" := by
  have names : (namingAttributed "team" "x-team" twiceHead).1.headers.toList = [("team", "x-team")] := by
    decide +kernel
  refine ⟨(attribution_headers_iff noExpressions noTexts noValues (namingConfig "team" "x-team") _
    (naming_accepted (by decide +kernel)) openAiRoute _ List.mem_cons_self openAiProvider twiceHead "/" none _ _ rfl
    (plainCtx (namingAttributed "team" "x-team" twiceHead)) (plainCtx_binds (by decide +kernel)) ⟨rfl, rfl⟩
    (fun _ _ => true) noSigner 0 _ (by decide +kernel)).mpr fun key name named later written => ?_, by decide +kernel⟩
  have listed := Std.TreeMap.mem_toList_iff_getElem?_eq_some.mpr named
  change (key, name) ∈ (namingAttributed "team" "x-team" twiceHead).1.headers.toList at listed
  rw [names] at listed
  obtain ⟨rfl, rfl⟩ := Prod.mk.inj (List.mem_singleton.mp listed)
  simp [HeaderCtx.laterWrite, HeaderCtx.forcedHeaders, plainCtx] at written

/-- A caller that accepts a content coding, which the operator attributes. -/
def gzipHead : RequestHead := ⟨"POST", [("accept-encoding", utf8 "gzip")]⟩

/-- A config that names `accept-encoding` for a key is accepted, and what the key resolves to is overwritten. -/
theorem coding_overwritten :
    ¬ ∀ (lib : Compilers Empty) (json : JsonText) (eval : Evaluator Empty) (cfg : Config) (finalized : Finalized Empty)
        (route : Route) (compiled : CompiledRoute Empty) (provider : Config.Provider) (head : RequestHead)
        (path : String) (claims : Option Claims) (policy : EffectivePolicy Empty) (resolution : Resolution)
        (ctx : HeaderCtx) (accepts : String → List UInt8 → Bool) (signer : Signer) (nowUnix : Nat)
        (headers : HeaderMap),
      Config.finalize lib cfg = .ok finalized → (route, compiled) ∈ finalized.routes →
        attributed json eval compiled cfg.apps head path claims = (policy, resolution) →
          Binds cfg route provider policy resolution ctx → ctx.wasmHeaderSet = [] ∧ ctx.wasmHeaderRemove = [] →
            ctx.upstreamRequestFilter accepts signer nowUnix head = some headers →
              Hygienic policy resolution headers := by
  intro claimed
  have named :
      (namingAttributed "coding" "accept-encoding" gzipHead).1.headers["coding"]? = some "accept-encoding" := by
    decide +kernel
  have hygienic := claimed noExpressions noTexts noValues (namingConfig "coding" "accept-encoding") _ openAiRoute _
    openAiProvider gzipHead "/" none _ _ (plainCtx (namingAttributed "coding" "accept-encoding" gzipHead))
    (fun _ _ => true) noSigner 0 [("accept-encoding", utf8 "identity"), ("host", utf8 "api.openai.com")]
    (naming_accepted (by decide +kernel)) List.mem_cons_self rfl (plainCtx_binds (by decide +kernel)) ⟨rfl, rfl⟩
    (by decide +kernel) "coding" "accept-encoding" named
  revert hygienic
  decide +kernel

end Attribution

end SmallGateway
