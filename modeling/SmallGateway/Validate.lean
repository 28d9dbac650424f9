import SmallGateway.Config

/-!
The validation of the fields of a config (`gateway-core/src/validate.rs`): each check yields its errors, in the
order in which they are reported, and none when the field is as it should be.
-/

namespace SmallGateway.Config

/-- An error when the condition holds. -/
def refuseIf (bad : Bool) (message : String) : List String := if bad then [message] else []

/-- The error of a check, under the name of what was checked. -/
def refused {α : Type} (ctx : String) : Except String α → List String
  | .error e => [ctx ++ ": " ++ e]
  | .ok _ => []

def quoted (text : String) : String := Text.debugStr text

/-! ### Keys, labels and session tags -/

def isKeyChar (c : Char) : Bool := c.isLower || c.isDigit || c == '-' || c == '_'

/-- An attribution key is a name that templates, expressions, session tags and labels can hold. -/
def checkKey (key ctx : String) : List String :=
  if key.isEmpty then [ctx ++ ": empty attribution key"]
  else
    refuseIf (!key.toList.all isKeyChar)
      (ctx ++ ": attribution key " ++ quoted key ++ " must be lowercase [a-z0-9_-] (keys appear in templates, CEL, " ++
        "session tags, and labels)")

def maxLabels : Nat := 64
def maxLabelKeyLen : Nat := 63
def maxLabelValueLen : Nat := 63
def maxSessionTagKeyLen : Nat := 128
def maxSessionTagValueLen : Nat := 256

def validateLabelKey (key : String) : Except String Unit :=
  if ¬ (1 ≤ key.length ∧ key.length ≤ maxLabelKeyLen) then
    .error ("label key must be 1-" ++ toString maxLabelKeyLen ++ " characters, got " ++ toString key.length)
  else if !(key.toList.take 1).all Char.isLower then
    .error ("label key " ++ quoted key ++ " must start with a lowercase letter")
  else if !(key.toList.drop 1).all isKeyChar then
    .error ("label key " ++ quoted key ++ " contains characters Google Cloud does not accept")
  else .ok ()

def validateLabelValue (value : String) : Except String Unit :=
  if value.length > maxLabelValueLen then
    .error ("label value must be at most " ++ toString maxLabelValueLen ++ " characters, got " ++ toString value.length)
  else if !value.toList.all isKeyChar then
    .error ("label value " ++ quoted value ++ " contains characters Google Cloud does not accept")
  else .ok ()

def awsTagChar (c : Char) : Bool := c.isAlphanum || "_.:/=+-@ ".toList.contains c

def validateSessionTagKey (key : String) : Except String Unit :=
  if ¬ (1 ≤ key.length ∧ key.length ≤ maxSessionTagKeyLen) then
    .error ("session tag key must be 1-" ++ toString maxSessionTagKeyLen ++ " characters, got " ++ toString key.length)
  else if !key.toList.all awsTagChar then
    .error ("session tag key " ++ quoted key ++ " contains characters AWS does not accept")
  else .ok ()

def validateSessionTagValue (value : String) : Except String Unit :=
  if value.length > maxSessionTagValueLen then
    .error ("session tag value must be at most " ++ toString maxSessionTagValueLen ++ " characters, got " ++
      toString value.length)
  else if !value.toList.all awsTagChar then
    .error ("session tag value " ++ quoted value ++ " contains characters AWS does not accept")
  else .ok ()

def sessionNameChar (c : Char) : Bool := c.isAlphanum || "_+=,.@-".toList.contains c

def validateSessionName (name : String) : Except String Unit :=
  if ¬ (2 ≤ name.length ∧ name.length ≤ 64) then
    .error ("RoleSessionName must be 2-64 characters, got " ++ toString name.length)
  else if !name.toList.all sessionNameChar then
    .error ("RoleSessionName " ++ quoted name ++ " contains characters AWS does not accept ([\\w+=,.@-])")
  else .ok ()

/-! ### Templates -/

/-- The shape of a value the operator decides, and a check on its template. -/
def validateOperatorValue (spec : OperatorValueSpec) (ctx : String) (checkTemplate : String → Except String Unit) :
    List String :=
  match spec.asTemplate with
  | none => [ctx ++ ": exactly one of 'value' or 'from_attribution' must be set"]
  | some template =>
    (match Template.placeholders template with
      | .error e => [ctx ++ ": " ++ e]
      | .ok keys => keys.flatMap fun key => checkKey key (ctx ++ ": placeholder")) ++
    refused ctx (checkTemplate template)

/-- A placeholder as it is written. -/
def braced (name : String) : String := "\x7b\x7b" ++ name ++ "\x7d\x7d"

def checkPlaceholders (text ctx : String) (allowed : List String) : List String :=
  match Template.placeholders text with
  | .ok names =>
    names.flatMap fun name =>
      refuseIf (!allowed.contains name)
        (ctx ++ ": unknown placeholder " ++ braced name ++ " (allowed: " ++
          String.intercalate ", " (allowed.map braced) ++ ")")
  | .error e => [ctx ++ ": " ++ e]

def validateTemplate (template : RejectionTemplate) (reason : String) (allowed : List String) : List String :=
  refuseIf (!(100 ≤ template.status && template.status ≤ 599))
      (reason ++ ": status " ++ toString template.status ++ " is not a valid HTTP status") ++
    refuseIf (Text.isBlank template.contentType) (reason ++ ": content_type must not be empty") ++
    checkPlaceholders template.body (reason ++ ".body") allowed ++
    (match template.streaming with
      | none => []
      | some streaming => checkPlaceholders streaming.data (reason ++ ".streaming.data") allowed)

/-- The check of a template that may be left out. -/
def validateTemplate? (template : Option RejectionTemplate) (reason : String) (allowed : List String) : List String :=
  match template with
  | none => []
  | some template => validateTemplate template reason allowed

def validateRejectionOverrides (overrides : RejectionOverrides) (ctx : String) : List String :=
  validateTemplate? overrides.defaultResponse (ctx ++ ".default_response") ["key", "route", "cap", "spend"] ++
    validateTemplate? overrides.unknownRoute (ctx ++ ".unknown_route") ["route"] ++
    validateTemplate? overrides.modelNotAllowed (ctx ++ ".model_not_allowed") ["model", "route"] ++
    validateTemplate? overrides.valueNotAllowed (ctx ++ ".value_not_allowed") ["key", "value", "route"] ++
    validateTemplate? overrides.capExceeded (ctx ++ ".cap_exceeded") ["key", "route", "cap", "spend"]

/-- The templates of the fleet are checked as those of a scope that sets them. -/
def validateRejections (rejections : Rejections) (ctx : String) : List String :=
  validateRejectionOverrides
    ⟨some rejections.defaultResponse, some rejections.unknownRoute, rejections.modelNotAllowed,
      rejections.valueNotAllowed, rejections.capExceeded⟩ ctx

/-! ### Providers -/

/-- The text is the name of an IAM role. -/
def isRoleArn (text : String) : Bool :=
  text.startsWith "arn:" && (Text.after? ":role/".toList text.toList).isSome

def validateEndpoint (endpoint : Upstream) (ctx : String) : List String :=
  refuseIf (Text.isBlank endpoint.host) (ctx ++ ".host must not be empty") ++
    refuseIf (endpoint.port == 0) (ctx ++ ".port must be 1-65535")

def validateTokenSource (source : TokenSource) (ctx : String) : List String :=
  let sound : Bool := match source.file, source.env with
    | some file, none => !Text.isBlank file
    | none, some env => !Text.isBlank env
    | _, _ => false
  refuseIf (!sound) (ctx ++ ".web_identity_token: exactly one of 'file' or 'env' must be set, non-empty")

/-- A fully static name is checked as such; what a template renders to is sanitized. -/
def checkSessionName (template : String) : Except String Unit :=
  match Template.placeholders template with
  | .ok (_ :: _) => .ok ()
  | _ => validateSessionName template

def checkRoleArn (template : String) : Except String Unit :=
  if Text.isBlank template then .error "must not be empty"
  else if !isRoleArn template then
    .error (quoted template ++ " is not an IAM role ARN (want arn:...:role/...)")
  else .ok ()

def validateAllow (allow : AllowList) (ctx : String) : List String :=
  checkKey allow.key (ctx ++ ".key") ++
    refuseIf allow.values.isEmpty (ctx ++ ".values must not be empty") ++
    allow.values.flatMap fun value => refuseIf (Text.isBlank value) (ctx ++ ".values must not contain empty entries")

def validateBase (sts : StsConfig) (base : BaseHop) (ctx : String) : List String :=
  validateTokenSource base.webIdentityToken (ctx ++ ": base") ++
    refuseIf (!isRoleArn base.roleArn)
      (ctx ++ ": base.role_arn " ++ quoted base.roleArn ++ " is not an IAM role ARN (want arn:...:role/...)") ++
    refused (ctx ++ ": base.session_name") (validateSessionName base.sessionName) ++
    refuseIf (sts.durationSecs > 3600)
      (ctx ++ ": duration_secs must be <= 3600 with a base hop — role chaining caps the chained session at one hour " ++
        "(AWS), got " ++ toString sts.durationSecs)

/-- The host of the live token service, which refuses a hop that is not signed. -/
def isLiveAws (host : String) : Bool :=
  let host := host.toLower
  host == "amazonaws.com" || host.endsWith ".amazonaws.com" || host.endsWith ".amazonaws.com.cn"


/-- What a session tag is set to. -/
def validateTagSource (tag : SessionTag) (ctx : String) : List String :=
  match tag.value, tag.fromAttribution with
  | some value, none => refused ctx (validateSessionTagValue value)
  | none, some key => checkKey key (ctx ++ ": from_attribution")
  | _, _ => [ctx ++ ": exactly one of 'value' or 'from_attribution' must be set"]

/-- The errors of the session tags, given the keys before them. -/
def validateTags (ctx : String) : List String → List SessionTag → List String
  | _, [] => []
  | seen, tag :: rest =>
    let tagCtx := ctx ++ ": tag " ++ quoted tag.key
    refused tagCtx (validateSessionTagKey tag.key) ++
      refuseIf (seen.contains tag.key) (tagCtx ++ ": duplicate tag key") ++
      validateTagSource tag tagCtx ++ validateTags ctx (tag.key :: seen) rest

def validateSts (name : String) (kind : ProviderKind) (sts : StsConfig) : List String :=
  let ctx := "provider " ++ quoted name ++ ": sts"
  refuseIf (kind != .bedrock)
      (ctx ++ ": session-tag credentials apply to bedrock-kind providers only (" ++ quoted name ++ " is " ++
        kind.name ++ ")") ++
    validateOperatorValue sts.roleArn (ctx ++ ": role_arn") checkRoleArn ++
    validateOperatorValue sts.sessionName (ctx ++ ": session_name") checkSessionName ++
    (match sts.allow with
      | none => []
      | some allow => validateAllow allow (ctx ++ ": allow")) ++
    (match sts.base with
      | none => []
      | some base => validateBase sts base ctx) ++
    refuseIf (sts.base.isNone && isLiveAws sts.endpoint.host)
      (ctx ++ ": endpoint " ++ quoted sts.endpoint.host ++ " is live AWS STS but no base hop is configured — live " ++
        "STS requires the SigV4-signed role chain; add base: with the platform's web-identity token") ++
    validateEndpoint sts.endpoint (ctx ++ ": endpoint") ++
    refuseIf (!(900 ≤ sts.durationSecs && sts.durationSecs ≤ 43200))
      (ctx ++ ": duration_secs must be 900-43200 (STS limits), got " ++ toString sts.durationSecs) ++
    refuseIf sts.tags.isEmpty
      (ctx ++ ": at least one session tag is required (GB-7 exists to put attribution ON the credentials)") ++
    validateTags ctx [] sts.tags

def validateVertexAuth (name : String) (kind : ProviderKind) (auth : VertexAuth) : List String :=
  let ctx := "provider " ++ quoted name ++ ": auth"
  refuseIf (kind != .vertex)
      (ctx ++ ": the vertex auth chain applies to vertex-kind providers only (" ++ quoted name ++ " is " ++
        kind.name ++ ")") ++
    validateTokenSource auth.webIdentityToken ctx ++
    refuseIf (!auth.serviceAccountEmail.toList.contains '@')
      (ctx ++ ".service_account_email " ++ quoted auth.serviceAccountEmail ++ " is not an email") ++
    ([("wif.project_number", auth.wif.projectNumber), ("wif.pool_id", auth.wif.poolId),
      ("wif.provider_id", auth.wif.providerId)].flatMap fun (field, value) =>
        refuseIf (Text.isBlank value) (ctx ++ "." ++ field ++ " must not be empty")) ++
    refuseIf auth.scopes.isEmpty (ctx ++ ".scopes must not be empty") ++
    refuseIf (!(300 ≤ auth.lifetimeSecs && auth.lifetimeSecs ≤ 3600))
      (ctx ++ ".lifetime_secs must be 300-3600 (generateAccessToken's default ceiling), got " ++
        toString auth.lifetimeSecs) ++
    validateEndpoint auth.stsEndpoint (ctx ++ ".sts_endpoint") ++
    validateEndpoint auth.iamEndpoint (ctx ++ ".iam_endpoint")

def validateLocations (name : String) (kind : ProviderKind) (locations : List String) : List String :=
  let ctx := "provider " ++ quoted name ++ ": locations"
  refuseIf (kind != .vertex)
      (ctx ++ ": location routing applies to vertex-kind providers only (" ++ quoted name ++ " is " ++ kind.name ++
        ")") ++
    refuseIf locations.isEmpty (ctx ++ " must not be empty when present") ++
    locations.flatMap fun location =>
      refuseIf (Text.isBlank location || location.toList.contains '/')
        (ctx ++ ": " ++ quoted location ++ " is not a location name")

def validateForcedHeader (ctx : String) (header : ForcedHeader) : List String :=
  let ctx := ctx ++ ": header " ++ quoted header.name
  refuseIf (Text.isBlank header.name || header.name.toList.any Text.isWhitespace)
      (ctx ++ ": header name must be a non-empty token") ++
    refuseIf (reservedHeaders.contains header.name.toLower)
      (ctx ++ ": this header is owned by signing/transport and cannot be operator-forced") ++
    validateOperatorValue header.value ctx fun template =>
      if template.isEmpty then .error "must not be empty" else .ok ()

def validateForcedBodyField (ctx : String) (field : ForcedBodyField) : List String :=
  let ctx := ctx ++ ": body " ++ quoted field.path
  refuseIf (Text.isBlank field.path ||
      (ResolvedBodyField.mk field.path "" false).segments.any Text.isBlank)
      (ctx ++ ": path must be non-empty dotted segments (a.b.c)") ++
    validateOperatorValue field.value ctx fun _ => .ok ()

def validateInjection (name : String) (provider : Provider) (inject : Injection) : List String :=
  let ctx := "provider " ++ quoted name ++ ": inject"
  refuseIf (provider.kind == .bedrock && provider.sts.isNone)
      (ctx ++ ": forced injection on a bedrock provider requires sts — a pass-through request is caller-signed and " ++
        "cannot be modified") ++
    inject.headers.flatMap (validateForcedHeader ctx) ++ inject.body.flatMap (validateForcedBodyField ctx)

def validateProvider (name : String) (provider : Provider) : List String :=
  refuseIf (Text.isBlank name) "providers: provider name must not be empty" ++
    refuseIf (Text.isBlank provider.upstream.host)
      ("provider " ++ quoted name ++ ": upstream.host must not be empty") ++
    refuseIf (provider.upstream.port == 0) ("provider " ++ quoted name ++ ": upstream.port must be 1-65535") ++
    (match provider.sts with
      | none => []
      | some sts => validateSts name provider.kind sts) ++
    (match provider.auth with
      | none => []
      | some auth => validateVertexAuth name provider.kind auth) ++
    (match provider.locations with
      | none => []
      | some locations => validateLocations name provider.kind locations) ++
    (match provider.inject with
      | none => []
      | some inject => validateInjection name provider inject)

def validateProviders (cfg : Config) : List String :=
  refuseIf cfg.providers.isEmpty "providers: at least one provider is required" ++
    cfg.providers.toList.flatMap fun (name, provider) => validateProvider name provider

/-! ### The rest of the file -/

def validateTelemetry (cfg : Config) : List String :=
  match cfg.otlp with
  | none => []
  | some otlp =>
    validateEndpoint otlp.endpoint "telemetry.otlp.endpoint" ++
      refuseIf (Text.isBlank otlp.serviceName) "telemetry.otlp.service_name must not be empty" ++
      refuseIf (otlp.flushIntervalSecs == 0 || otlp.flushIntervalSecs > 300)
        ("telemetry.otlp.flush_interval_secs must be 1-300, got " ++ toString otlp.flushIntervalSecs)

def validateAlerts (cfg : Config) : List String :=
  match cfg.webhook with
  | none => []
  | some webhook =>
    validateEndpoint webhook.endpoint "alerts.webhook.endpoint" ++
      refuseIf (!webhook.path.startsWith "/") ("alerts.webhook.path must start with '/', got " ++ quoted webhook.path)

/-- The keys of an identity provider are parsed by a reader of their own. -/
def validateAuth (parseJwks : String → Except String Unit) (cfg : Config) : List String :=
  match cfg.jwt with
  | none => []
  | some jwt =>
    (match jwt.hs256Secret, jwt.jwks with
      | some secret, none => refuseIf secret.isEmpty "auth.jwt.hs256_secret must not be empty"
      | none, some jwks => refused "auth.jwt.jwks" (parseJwks jwks)
      | _, _ =>
        ["auth.jwt: exactly one of 'hs256_secret' (fleet-minted tokens) or 'jwks' (RS256, real IdP) must be set"]) ++
    refuseIf (Text.isBlank jwt.header) "auth.jwt.header must not be empty"

/-- The errors of the declared modules, given the names before them. -/
def validateModules : List String → List WasmModule → List String
  | _, [] => []
  | seen, declared :: rest =>
    let ctx := "wasm module " ++ quoted declared.name
    (if Text.isBlank declared.name then ["wasm module has an empty name"]
      else refuseIf (seen.contains declared.name) (ctx ++ ": duplicate module name")) ++
      refuseIf (Text.isBlank declared.source) (ctx ++ ": empty source path") ++
      refuseIf declared.hooks.isEmpty
        (ctx ++ ": declares no hooks — a module must implement at least one of " ++
          "on_request/on_response_event/on_response_end") ++
      refuseIf (declared.schema == 0) (ctx ++ ": schema version must be >= 1") ++
      validateModules (if Text.isBlank declared.name then seen else declared.name :: seen) rest

def validateWasm (cfg : Config) : List String := validateModules [] cfg.wasm.modules

end SmallGateway.Config
