import SmallGateway.Budget
import SmallGateway.RequestBody
import SmallGateway.WasmModules

/-!
The config file (`gateway-core/src/config.rs`) as its validation reads it: providers, the four policy scopes (fleet,
project, route and app), attribution rules, rejection templates, billing labels and spend caps. Fields that only the
clients of the gateway read are left out.
-/

namespace SmallGateway

/-- Entries of the config file under names, in the order of the names. -/
abbrev Named (α : Type) := Std.TreeMap String α

namespace Config

structure Upstream where
  host : String
  port : Nat

/-! ### Providers -/

structure SessionTag where
  key : String
  value : Option String
  fromAttribution : Option String

/-- The values of one attribution key that the operator has approved. -/
structure AllowList where
  key : String
  values : List String

/-- Where a token of the platform is read from. -/
structure TokenSource where
  file : Option String
  env : Option String

/-- The first hop of a role chain. -/
structure BaseHop where
  webIdentityToken : TokenSource
  roleArn : String
  sessionName : String

/-- The exchange of attribution values for credentials with session tags. -/
structure StsConfig where
  endpoint : Upstream
  roleArn : OperatorValueSpec
  sessionName : OperatorValueSpec
  durationSecs : Nat
  tags : List SessionTag
  allow : Option AllowList
  base : Option BaseHop

structure WifAudience where
  projectNumber : String
  poolId : String
  providerId : String

structure VertexAuth where
  webIdentityToken : TokenSource
  wif : WifAudience
  serviceAccountEmail : String
  stsEndpoint : Upstream
  iamEndpoint : Upstream
  scopes : List String
  lifetimeSecs : Nat

structure Provider where
  kind : ProviderKind
  upstream : Upstream
  inject : Option Injection
  auth : Option VertexAuth
  locations : Option (List String)
  sts : Option StsConfig

/-! ### Scopes -/

/-- The marker that splices the list of the scope above into a list. -/
def baseMarker : String := "<base>"

/-- The spend cap of an attribution key as it is written. -/
structure SpendCapSpec where
  default : Option Nat
  overrides : Named (Option Nat)
  window : Option Window
  alertAt : Option Nat

/-- The attribution contract of one scope. -/
structure Attribution where
  requiredKeys : List String
  headers : Named String
  pinned : Named String
  fromClaims : Named String
  derived : Named String
  spendCaps : Named SpendCapSpec
  models : Option (List String)

structure LabelSpec where
  key : String
  value : Option String
  fromAttribution : Option String
  expression : Option String

/-- An entry of a label list: a bare text, which is to be the marker, or a label. -/
inductive LabelEntry where
  | base (text : String)
  | spec (spec : LabelSpec)

/-- The terminal event of a stream that is cut. -/
structure StreamingRejection where
  event : Option String
  data : String

structure RejectionTemplate where
  status : Nat
  contentType : String
  body : String
  streaming : Option StreamingRejection

/-- The rejection templates of the fleet. -/
structure Rejections where
  defaultResponse : RejectionTemplate
  unknownRoute : RejectionTemplate
  modelNotAllowed : Option RejectionTemplate
  valueNotAllowed : Option RejectionTemplate
  capExceeded : Option RejectionTemplate

/-- The rejection templates a scope sets in place of those above it. -/
structure RejectionOverrides where
  defaultResponse : Option RejectionTemplate
  unknownRoute : Option RejectionTemplate
  modelNotAllowed : Option RejectionTemplate
  valueNotAllowed : Option RejectionTemplate
  capExceeded : Option RejectionTemplate

/-- The template for a refused model when the operator has none. -/
def defaultModelNotAllowed : RejectionTemplate where
  status := 403
  contentType := "application/json"
  body := "\x7b\"error\":\"model_not_allowed\",\"model\":\"\x7b\x7bmodel\x7d\x7d\",\"route\":\"\x7b\x7broute\x7d\x7d\"\x7d"
  streaming := none

structure Scope where
  attribution : Attribution
  labels : List LabelEntry
  rejections : Option RejectionOverrides

/-- The app scope: the resolved value of one attribution key selects an override. -/
structure Apps where
  key : String
  overrides : Named Scope

/-- A route: its path prefix, its provider and project by name, its condition, and its own scope. -/
structure Route where
  pathPrefix : String
  provider : String
  project : Option String
  condition : Option String
  scope : Scope

/-! ### The rest of the file -/

/-- How tokens are verified: by a shared secret, or by the keys of an identity provider. -/
structure JwtAuth where
  hs256Secret : Option String
  jwks : Option String
  header : String

structure OtlpConfig where
  endpoint : Upstream
  serviceName : String
  flushIntervalSecs : Nat

structure WebhookTarget where
  endpoint : Upstream
  path : String

end Config

open Config in
structure Config where
  providers : Named Config.Provider
  fleet : Option Scope
  projects : Named Scope
  routes : List Route
  apps : Option Apps
  rejections : Rejections
  jwt : Option JwtAuth
  otlp : Option OtlpConfig
  webhook : Option WebhookTarget
  wasm : WasmConfig

end SmallGateway
