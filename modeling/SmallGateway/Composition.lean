import SmallGateway.Scope

/-!
The composition of a chain of layers, top scope first, and the acceptance of a config (`compose` and `finalize` in
`gateway-core/src/scope.rs`). Every policy a request can meet has passed the checks that need the whole chain and the
provider (`accepted_policy`).
-/

namespace SmallGateway.Config

variable {Expr : Type}

/-! ### Lists -/

/-- The parent's list at the first marker of the child's list; a further marker adds nothing. -/
def spliceOnto (parent : List String) : Bool → List String → List String
  | _, [] => []
  | spliced, entry :: rest =>
    if entry = baseMarker then (if spliced then [] else parent) ++ spliceOnto parent true rest
    else entry :: spliceOnto parent spliced rest

/-- A list that is absent inherits the parent's. -/
def spliceRequired (parent child : List String) : List String :=
  if child.isEmpty then parent else spliceOnto parent false child

/-- A label of a chain with the depth of its scope. -/
structure ChainLabel (Expr : Type) where
  depth : Nat
  key : String
  value : LabelValue Expr

def spliceLabels (parent : List (ChainLabel Expr)) (depth : Nat) :
    Bool → List (LabelItem Expr) → List (ChainLabel Expr)
  | _, [] => []
  | spliced, .base :: rest => (if spliced then [] else parent) ++ spliceLabels parent depth true rest
  | spliced, .label key value :: rest => ⟨depth, key, value⟩ :: spliceLabels parent depth spliced rest

/-- The labels of a chain whose first scope has the given depth, below those of the scopes above it. -/
def chainLabels (parent : List (ChainLabel Expr)) : Nat → List (Layer Expr) → List (ChainLabel Expr)
  | _, [] => parent
  | depth, layer :: rest =>
    chainLabels (if layer.labels.isEmpty then parent else spliceLabels parent depth false layer.labels) (depth + 1) rest

/-- The depth of the deepest scope that sets a label. -/
def deepest (labels : List (ChainLabel Expr)) (key : String) : Nat :=
  ((labels.filter (·.key == key)).map (·.depth)).foldl max 0

/-- Of the labels of one key the first one of the deepest scope, given the keys before them. -/
def finalLabels (labels : List (ChainLabel Expr)) :
    List String → List (ChainLabel Expr) → List (EffectiveLabel Expr)
  | _, [] => []
  | emitted, label :: rest =>
    if deepest labels label.key = label.depth ∧ emitted.contains label.key = false then
      ⟨label.key, label.value⟩ :: finalLabels labels (label.key :: emitted) rest
    else finalLabels labels emitted rest

/-! ### Origins -/

inductive OriginKind where
  | pinned
  | claim
  | derived
  deriving DecidableEq

def OriginKind.label : OriginKind → String
  | .pinned => "pinned"
  | .claim => "claim-mapped"
  | .derived => "derived"

/-- The origin of each key so far, with the scope that set it last. -/
abbrev Origins := Named (OriginKind × String)

/-- A scope sets a key. A key with another origin further up is contradictory and keeps that one. -/
def setOrigin (ctx scope : String) (origins : Origins) (kind : OriginKind) (key : String) : Origins × List String :=
  match origins[key]? with
  | some (previous, owner) =>
    if previous ≠ kind then
      (origins, [ctx ++ ": contradictory pin: key " ++ quoted key ++ " is " ++ previous.label ++ " at " ++ owner ++
        " but " ++ kind.label ++ " at " ++ scope ++ "; one key, one origin down the chain"])
    else (origins.insert key (kind, scope), [])
  | none => (origins.insert key (kind, scope), [])

/-- The keys a scope sets, each with its origin. -/
def Layer.sets (layer : Layer Expr) : List (OriginKind × String) :=
  layer.pinned.keys.map (OriginKind.pinned, ·) ++ layer.fromClaims.keys.map (OriginKind.claim, ·) ++
    layer.derived.keys.map (OriginKind.derived, ·)

def setOrigins (ctx : String) (origins : Origins) (layer : Layer Expr) : Origins × List String :=
  layer.sets.foldl
    (fun (origins, errors) (kind, key) =>
      let (origins, more) := setOrigin ctx layer.name origins kind key
      (origins, errors ++ more))
    (origins, [])

/-- The contradictions down a chain. -/
def originErrors (ctx : String) (chain : List (Layer Expr)) : List String :=
  (chain.foldl
    (fun (origins, errors) layer =>
      let (origins, more) := setOrigins ctx origins layer
      (origins, errors ++ more))
    ((∅ : Origins), [])).2

/-! ### Composition -/

/-- A map of a chain, where the lower scope wins. -/
def mergeDown {α : Type} (field : Layer Expr → Named α) (chain : List (Layer Expr)) : Named α :=
  chain.foldl (fun merged layer => overlay merged (field layer)) ∅

/-- Header names are one canonical lower case everywhere. -/
def Layer.lowerHeaders (layer : Layer Expr) : Named String := layer.headers.map fun _ name => name.toLower

/-- The caps of a scope folded into those of the scopes above it. -/
def mergeCaps (caps : Named KeyCap) (layer : Layer Expr) : Named KeyCap :=
  layer.spendCaps.toList.foldl
    (fun caps (key, cap) =>
      caps.insert key (match caps[key]? with
        | some parent => parent.composeChild cap
        | none => cap))
    caps

/-- The last scope of a chain that sets a template, or what the fleet has. -/
def lastSet (chain : List (Layer Expr)) (field : RejectionOverrides → Option RejectionTemplate)
    (base : Option RejectionTemplate) : Option RejectionTemplate :=
  chain.foldl (fun template layer => (field layer.rejections).or template) base

/-- The policy of a chain, and its errors. -/
def compose (base : Rejections) (chain : List (Layer Expr)) (ctx : String) : EffectivePolicy Expr × List String :=
  let chained := chainLabels [] 0 chain
  let labels := finalLabels chained [] chained
  ({ requiredKeys := (chain.foldl (fun required layer => spliceRequired required layer.requiredKeys) []).eraseDups
     pinned := mergeDown Layer.pinned chain
     fromClaims := mergeDown Layer.fromClaims chain
     derived := mergeDown Layer.derived chain
     labels := labels
     spendCaps := chain.foldl mergeCaps ∅
     models := chain.foldl (fun models layer => layer.models.or models) none
     headers := mergeDown Layer.lowerHeaders chain
     defaultResponse := (lastSet chain (·.defaultResponse) none).getD base.defaultResponse
     unknownRoute := (lastSet chain (·.unknownRoute) none).getD base.unknownRoute
     modelNotAllowed :=
       (lastSet chain (·.modelNotAllowed) base.modelNotAllowed).getD defaultModelNotAllowed
     valueNotAllowed := lastSet chain (·.valueNotAllowed) base.valueNotAllowed
     capExceeded := lastSet chain (·.capExceeded) base.capExceeded },
    originErrors ctx chain ++
      refuseIf (labels.length > maxLabels)
        (ctx ++ ": " ++ toString labels.length ++ " labels after composition exceed the Google Cloud limit of " ++
          toString maxLabels))

/-! ### Checks on a composed policy -/

/-- The headers that transport, signing and credentials own. -/
def reservedAttrHeaders : List String :=
  ["host", "authorization", "content-length", "transfer-encoding", "content-type", "api-key", "x-amz-date",
    "x-amz-security-token", "x-amz-content-sha256"]

def isHeaderName (name : String) : Bool :=
  !name.isEmpty && name.toList.all fun c => c.isLower || c.isDigit || c == '-'

/-- The errors of the caller headers, given the header names before them with their keys. -/
def checkHeaderNames (ctx : String) : List (String × String) → List (String × String) → List String
  | _, [] => []
  | seen, (key, name) :: rest =>
    refuseIf (!isHeaderName name)
        (ctx ++ ": header " ++ quoted name ++ " for key " ++ quoted key ++
          " must be non-empty [a-z0-9-] (proxies commonly drop underscore headers)") ++
      refuseIf (reservedAttrHeaders.contains name)
        (ctx ++ ": header " ++ quoted name ++ " for key " ++ quoted key ++
          " is owned by transport/signing/credentials and cannot carry attribution") ++
      (match seen.lookup name with
        | none => []
        | some previous =>
          [ctx ++ ": header " ++ quoted name ++ " is named for both " ++ quoted previous ++ " and " ++ quoted key ++
            " — one header, one key"]) ++
      checkHeaderNames ctx ((name, key) :: seen) rest

/-- The key has a source: the gateway, or a header of the caller. -/
def EffectivePolicy.sourced (policy : EffectivePolicy Expr) (key : String) : Bool :=
  policy.established key || policy.headers.contains key

def validateAttrHeaders (ctx : String) (policy : EffectivePolicy Expr) (sts : Option StsConfig) : List String :=
  checkHeaderNames ctx [] policy.headers.toList ++
    (policy.requiredKeys.flatMap fun key =>
      refuseIf (!policy.sourced key)
        (ctx ++ ": required key " ++ quoted key ++ " has no source — not pinned, claim-mapped, or derived, and no " ++
          "caller header is named for it under attribution.headers (there is no default header name)")) ++
    (match sts.bind (·.allow) with
      | none => []
      | some allow =>
        refuseIf (!policy.sourced allow.key)
          (ctx ++ ": sts allow key " ++ quoted allow.key ++ " has no source — it is neither gateway-established nor " ++
            "named under attribution.headers, so every request would be refused"))

/-- The errors of a template of the operator: its keys have to resolve, and to values that the gateway establishes
    or an allow-list admits. -/
def checkSteering (policy : EffectivePolicy Expr) (spec : OperatorValueSpec) (admitted : String → Bool)
    (ctx why : String) : List String :=
  match spec.asTemplate with
  | none => []
  | some template =>
    match Template.placeholders template with
    | .error _ => []
    | .ok keys =>
      keys.flatMap fun key =>
        if !policy.keyUniverse.contains key then
          [ctx ++ " references attribution key " ++ quoted key ++
            ", which the composed chain never requires, pins, claim-maps, or derives — it could never resolve"]
        else
          refuseIf (!policy.established key && !admitted key)
            (ctx ++ " references attribution key " ++ quoted key ++
              ", which is caller-asserted (not pinned, claim-mapped, or derived) " ++ why)

def injectWhy : String := "— forced injection is operator policy, never caller-steerable"

def roleWhy : String := "and not gated by this block's allow-list — a caller must never steer which role is assumed"

def checkInjection (ctx : String) (policy : EffectivePolicy Expr) (inject : Injection) : List String :=
  (inject.headers.flatMap fun header =>
    checkSteering policy header.value (fun _ => false) (ctx ++ ": inject header " ++ quoted header.name) injectWhy) ++
  inject.body.flatMap fun field =>
    checkSteering policy field.value (fun _ => false) (ctx ++ ": inject body " ++ quoted field.path) injectWhy

def checkLabelKeys (ctx : String) (policy : EffectivePolicy Expr) : List String :=
  policy.labels.flatMap fun label =>
    match label.value with
    | .fromAttribution key =>
      refuseIf (!policy.keyUniverse.contains key)
        (ctx ++ ": label " ++ quoted label.key ++ " references attribution key " ++ quoted key ++
          ", which the composed chain never requires, pins, claim-maps, or derives — it could never resolve")
    | _ => []

/-- The one key whose values an allow-list closes. -/
def StsConfig.allowGates (sts : StsConfig) (key : String) : Bool := sts.allow.any (·.key == key)

def checkSts (ctx : String) (policy : EffectivePolicy Expr) (sts : StsConfig) : List String :=
  (sts.tags.flatMap fun tag =>
    match tag.fromAttribution with
    | none => []
    | some key =>
      refuseIf (!policy.established key)
        (ctx ++ ": sts tag " ++ quoted tag.key ++ " references attribution key " ++ quoted key ++
          ", which is not pinned, claim-mapped, or derived on this chain — session tags are " ++
          "operator/attribution-derived only, never caller-raw")) ++
  (match sts.allow with
    | none => []
    | some allow =>
      refuseIf (!policy.keyUniverse.contains allow.key)
        (ctx ++ ": sts allow.key " ++ quoted allow.key ++
          " is a key the composed chain never requires, pins, claim-maps, or derives — it could never resolve")) ++
  checkSteering policy sts.roleArn sts.allowGates (ctx ++ ": sts role_arn") roleWhy ++
  checkSteering policy sts.sessionName sts.allowGates (ctx ++ ": sts session_name") roleWhy

def validateEffectiveForProvider (ctx : String) (policy : EffectivePolicy Expr) (provider : Provider) : List String :=
  (match provider.inject with
    | none => []
    | some inject => checkInjection ctx policy inject) ++
  (if provider.kind = .vertex then checkLabelKeys ctx policy else []) ++
  (match provider.sts with
    | none => []
    | some sts => checkSts ctx policy sts)

/-! ### Acceptance -/

/-- What a route is served under: its condition, its policy, and its policy under each app override. -/
structure CompiledRoute (Expr : Type) where
  condition : Option Expr
  effective : EffectivePolicy Expr
  apps : Named (EffectivePolicy Expr)

/-- An accepted config, each of its routes with what it compiled to. -/
structure Finalized (Expr : Type) where
  config : Config
  routes : List (Route × CompiledRoute Expr)

section

variable (lib : Compilers Expr) (cfg : Config)

def fleetLayer : Option (Layer Expr) := cfg.fleet.map fun scope => (compileLayer lib "fleet" scope).1

def projectLayers : Named (Layer Expr) :=
  cfg.projects.map fun name scope => (compileLayer lib ("project " ++ quoted name) scope).1

def appLayers : Named (Layer Expr) :=
  match cfg.apps with
  | none => ∅
  | some apps => apps.overrides.map fun value scope => (compileLayer lib ("app " ++ quoted value) scope).1

/-- An override does not redefine the key that selects it. -/
def checkSelector (name selector : String) (attr : Attribution) : List String :=
  [("pinned", attr.pinned.contains selector), ("from_claims", attr.fromClaims.contains selector),
    ("derived", attr.derived.contains selector)].flatMap fun (map, has) =>
      refuseIf has
        (name ++ ": " ++ map ++ " redefines the app selector key " ++ quoted selector ++
          "; an app override may not change how its own selector resolves")

def checkOverride (selector value : String) (scope : Scope) : List String :=
  let name := "app " ++ quoted value
  let (layer, errors) := compileLayer lib name scope
  refuseIf (Text.isBlank value) "apps.overrides: empty app value" ++ errors ++
    refuseIf (!layer.headers.isEmpty)
      (name ++ ": attribution.headers is route-scope and above — the caller channel must be known before the app " ++
        "override is selected") ++
    checkSelector name selector scope.attribution

/-- The errors of the scopes above and below the routes. -/
def scopeErrors : List String :=
  (match cfg.fleet with
    | none => []
    | some scope => (compileLayer lib "fleet" scope).2) ++
  (cfg.projects.toList.flatMap fun (name, scope) => (compileLayer lib ("project " ++ quoted name) scope).2) ++
  (match cfg.apps with
    | none => []
    | some apps =>
      checkKey apps.key "apps.key" ++ apps.overrides.toList.flatMap fun (value, scope) =>
        checkOverride lib apps.key value scope)

def Route.label (route : Route) : String := "route " ++ quoted route.pathPrefix

/-- The prefix without the slashes at its end. -/
def Route.trimmedPrefix (route : Route) : List Char :=
  (route.pathPrefix.toList.reverse.dropWhile (· == '/')).reverse

def Route.layer (route : Route) : Layer Expr := (compileLayer lib route.label route.scope).1

/-- The layer of the route's project, when the project exists. -/
def projectLayer (route : Route) : Option (Layer Expr) :=
  route.project.bind fun project => (projectLayers lib cfg)[project]?

/-- The layers above the apps. -/
def routeChain (route : Route) : List (Layer Expr) :=
  (fleetLayer lib cfg).toList ++ (projectLayer lib cfg route).toList ++ [route.layer lib]

def appContext (route : Route) (value : String) : String := route.label ++ " ⊕ app " ++ quoted value

def compileRoute (route : Route) : CompiledRoute Expr where
  condition := route.condition.bind fun source => (lib.compile source .condition).toOption
  effective := (compose cfg.rejections (routeChain lib cfg route) route.label).1
  apps := (appLayers lib cfg).map fun value layer =>
    (compose cfg.rejections (routeChain lib cfg route ++ [layer]) (appContext route value)).1

/-- The checks on one policy of a route. -/
def checkPolicy (route : Route) (ctx : String) (policy : EffectivePolicy Expr) : List String :=
  let provider := cfg.providers[route.provider]?
  refuseIf (!policy.fromClaims.isEmpty && cfg.jwt.isNone) (ctx ++ ": from_claims requires auth.jwt to be configured") ++
    validateAttrHeaders ctx policy (provider.bind (·.sts)) ++
    (match provider with
      | none => []
      | some provider => validateEffectiveForProvider ctx policy provider)

/-- The errors of a route by itself: its names, its condition and its scope. -/
def checkRoute (route : Route) : List String :=
  refuseIf (!cfg.providers.contains route.provider)
      (route.label ++ ": unknown provider " ++ quoted route.provider ++ " (defined providers: " ++
        String.intercalate ", " cfg.providers.keys ++ ")") ++
    (match route.condition with
      | none => []
      | some source => refused (route.label ++ ": match") (lib.compile source .condition)) ++
    (match route.project with
      | none => []
      | some project =>
        refuseIf (!cfg.projects.contains project)
          (route.label ++ ": unknown project " ++ quoted project ++ " (defined projects: " ++
            String.intercalate ", " cfg.projects.keys ++ ")")) ++
    (compileLayer lib route.label route.scope).2

/-- The errors of a route's policies, that of the route first. -/
def checkPolicies (route : Route) : List String :=
  let compiled := compileRoute lib cfg route
  (compose cfg.rejections (routeChain lib cfg route) route.label).2 ++
    ((appLayers lib cfg).toList.flatMap fun (value, layer) =>
      (compose cfg.rejections (routeChain lib cfg route ++ [layer]) (appContext route value)).2) ++
    checkPolicy cfg route route.label compiled.effective ++
    compiled.apps.toList.flatMap fun (value, policy) => checkPolicy cfg route (appContext route value) policy

/-- Labels are for one kind of provider, and every request can select an app. -/
def checkAppsAndLabels (route : Route) : List String :=
  (match cfg.providers[route.provider]? with
    | none => []
    | some provider =>
      refuseIf (!route.scope.labels.isEmpty && provider.kind != .vertex)
        (route.label ++ ": labels require a vertex-kind provider (" ++ quoted route.provider ++ " is " ++
          provider.kind.name ++ ")")) ++
  (match cfg.apps with
    | none => []
    | some apps =>
      refuseIf (!(appLayers lib cfg).isEmpty &&
          !(compileRoute lib cfg route).effective.keyUniverse.contains apps.key)
        (route.label ++ ": apps are keyed by " ++ quoted apps.key ++ " but the composed fleet→project→route chain " ++
          "never requires, pins, claim-maps, or derives that key — no request on this route could ever select an " ++
          "app override"))

/-- The errors of the routes, given the prefixes of those before them that have no condition. -/
def routeErrors : List (List Char) → List Route → List String
  | _, [] => []
  | seen, route :: rest =>
    refuseIf (!route.pathPrefix.startsWith "/") (route.label ++ ": prefix must start with '/'") ++
      refuseIf (route.condition.isNone && seen.contains route.trimmedPrefix)
        (route.label ++ ": duplicate prefix without a `match` condition (two unconditioned routes on one prefix are " ++
          "ambiguous)") ++
      checkRoute lib cfg route ++ checkPolicies lib cfg route ++ checkAppsAndLabels lib cfg route ++
      routeErrors (if route.condition.isNone then route.trimmedPrefix :: seen else seen) rest

/-- Every error of a config, in the order in which they are found. -/
def configErrors : List String :=
  validateProviders cfg ++ validateAuth lib.parseJwks cfg ++ validateTelemetry cfg ++ validateAlerts cfg ++
    validateWasm cfg ++ validateRejections cfg.rejections "rejections" ++ scopeErrors lib cfg ++
    routeErrors lib cfg [] cfg.routes ++
    refuseIf cfg.routes.isEmpty "routes: at least one route is required"

/-- A config is accepted when nothing is wrong with it. -/
def finalize : Except (List String) (Finalized Expr) :=
  if (configErrors lib cfg).isEmpty then
    .ok ⟨cfg, cfg.routes.map fun route => (route, compileRoute lib cfg route)⟩
  else .error (configErrors lib cfg)

end

/-! ### What acceptance says of a policy -/

/-- A policy that a request on the route can be held to. -/
def CompiledRoute.Serves (compiled : CompiledRoute Expr) (policy : EffectivePolicy Expr) : Prop :=
  policy = compiled.effective ∨ ∃ value : String, compiled.apps[value]? = some policy

section

variable {lib : Compilers Expr} {cfg : Config}

theorem finalize_ok {finalized : Finalized Expr} (accepted : finalize lib cfg = .ok finalized) :
    configErrors lib cfg = [] ∧ finalized = ⟨cfg, cfg.routes.map fun route => (route, compileRoute lib cfg route)⟩ := by
  unfold finalize at accepted
  split at accepted
  case isTrue none => exact ⟨List.isEmpty_iff.mp none, (Except.ok.inj accepted).symm⟩
  case isFalse => cases accepted

/-- A provider of a config without errors has none of its own. -/
theorem validateProvider_nil (none : configErrors lib cfg = []) {name : String} {provider : Provider}
    (known : cfg.providers[name]? = some provider) : validateProvider name provider = [] := by
  simp only [configErrors, validateProviders, List.append_eq_nil_iff, List.flatMap_eq_nil_iff] at none
  exact none.1.1.1.1.1.1.1.1.2 (name, provider) (Std.TreeMap.mem_toList_iff_getElem?_eq_some.mpr known)

/-- Nor does its exchange. -/
theorem validateSts_nil (none : configErrors lib cfg = []) {name : String} {provider : Provider} {sts : StsConfig}
    (known : cfg.providers[name]? = some provider) (exchanges : provider.sts = some sts) :
    validateSts name provider.kind sts = [] := by
  have own := validateProvider_nil none known
  simp only [validateProvider, exchanges, List.append_eq_nil_iff] at own
  exact own.1.1.1.2

/-- A route of a config without errors has none of its own. -/
theorem routeErrors_nil {seen : List (List Char)} {routes : List Route} (none : routeErrors lib cfg seen routes = []) :
    ∀ route ∈ routes, checkRoute lib cfg route = [] ∧ checkPolicies lib cfg route = [] := by
  induction routes generalizing seen with
  | nil => simp
  | cons first rest ih =>
    simp only [routeErrors, List.append_eq_nil_iff] at none
    obtain ⟨⟨⟨⟨-, own⟩, policies⟩, -⟩, others⟩ := none
    intro route listed
    rcases List.mem_cons.mp listed with rfl | later
    · exact ⟨own, policies⟩
    · exact ih others route later

/-- A route of an accepted config is compiled, and its policies have no errors. -/
theorem accepted_route {finalized : Finalized Expr} (accepted : finalize lib cfg = .ok finalized) {route : Route}
    {compiled : CompiledRoute Expr} (listed : (route, compiled) ∈ finalized.routes) :
    compiled = compileRoute lib cfg route ∧ checkPolicies lib cfg route = [] := by
  obtain ⟨none, rfl⟩ := finalize_ok accepted
  obtain ⟨route, known, same⟩ := List.mem_map.mp listed
  obtain ⟨rfl, rfl⟩ := Prod.mk.inj same
  have routes : routeErrors lib cfg [] cfg.routes = [] := by
    simp only [configErrors, List.append_eq_nil_iff] at none
    exact none.1.2
  exact ⟨rfl, (routeErrors_nil routes route known).2⟩

/-- Every policy of an accepted config has passed the checks. -/
theorem accepted_policy {finalized : Finalized Expr} (accepted : finalize lib cfg = .ok finalized) {route : Route}
    {compiled : CompiledRoute Expr} (listed : (route, compiled) ∈ finalized.routes) {policy : EffectivePolicy Expr}
    (serves : compiled.Serves policy) : ∃ ctx, checkPolicy cfg route ctx policy = [] := by
  obtain ⟨rfl, policies⟩ := accepted_route accepted listed
  simp only [checkPolicies, List.append_eq_nil_iff, List.flatMap_eq_nil_iff] at policies
  obtain ⟨⟨-, own⟩, apps⟩ := policies
  rcases serves with rfl | ⟨value, found⟩
  · exact ⟨route.label, own⟩
  · exact ⟨appContext route value, apps (value, policy) (Std.TreeMap.mem_toList_iff_getElem?_eq_some.mpr found)⟩

/-- A policy of an accepted config has passed the checks of its provider. -/
theorem accepted_for_provider {finalized : Finalized Expr} (accepted : finalize lib cfg = .ok finalized) {route : Route}
    {compiled : CompiledRoute Expr} (listed : (route, compiled) ∈ finalized.routes) {policy : EffectivePolicy Expr}
    (serves : compiled.Serves policy) {provider : Provider} (known : cfg.providers[route.provider]? = some provider) :
    ∃ ctx, validateEffectiveForProvider ctx policy provider = [] := by
  obtain ⟨ctx, none⟩ := accepted_policy accepted listed serves
  simp only [checkPolicy, known, List.append_eq_nil_iff] at none
  exact ⟨ctx, none.2⟩

end

theorem refuseIf_nil {bad : Bool} {message : String} : refuseIf bad message = [] ↔ bad = false := by
  cases bad <;> simp [refuseIf]

section

variable {policy : EffectivePolicy Expr} {ctx why : String}

/-- The keys of a template that passes are established by the gateway or admitted. -/
theorem checkSteering_nil {spec : OperatorValueSpec} {admitted : String → Bool}
    (none : checkSteering policy spec admitted ctx why = []) :
    ∀ key ∈ spec.keys, policy.established key = true ∨ admitted key = true := by
  intro key named
  unfold OperatorValueSpec.keys at named
  unfold checkSteering at none
  cases template : spec.asTemplate with
  | none => simp [template] at named
  | some text =>
    cases parsed : Template.placeholders text with
    | error e => simp [template, parsed, Except.toOption] at named
    | ok keys =>
      simp only [template, parsed, Except.toOption, Option.getD_some] at named
      simp only [template, parsed, List.flatMap_eq_nil_iff] at none
      have passed := none key named
      split at passed
      · cases passed
      · rw [refuseIf_nil, Bool.and_eq_false_iff] at passed
        simpa using passed

theorem checkInjection_nil {inject : Injection} (none : checkInjection ctx policy inject = []) :
    (∀ header ∈ inject.headers, ∀ key ∈ header.value.keys, policy.established key = true) ∧
      ∀ field ∈ inject.body, ∀ key ∈ field.value.keys, policy.established key = true := by
  simp only [checkInjection, List.append_eq_nil_iff, List.flatMap_eq_nil_iff] at none
  obtain ⟨headers, body⟩ := none
  constructor
  · intro header listed key named
    exact (checkSteering_nil (headers header listed) key named).resolve_right Bool.false_ne_true
  · intro field listed key named
    exact (checkSteering_nil (body field listed) key named).resolve_right Bool.false_ne_true

theorem checkSts_nil {sts : StsConfig} (none : checkSts ctx policy sts = []) :
    (∀ tag ∈ sts.tags, ∀ key ∈ tag.fromAttribution, policy.established key = true) ∧
      (∀ key ∈ sts.roleArn.keys, policy.established key = true ∨ sts.allowGates key = true) ∧
      ∀ key ∈ sts.sessionName.keys, policy.established key = true ∨ sts.allowGates key = true := by
  simp only [checkSts, List.append_eq_nil_iff, List.flatMap_eq_nil_iff] at none
  obtain ⟨⟨⟨tags, -⟩, role⟩, session⟩ := none
  refine ⟨fun tag listed key source => ?_, checkSteering_nil role, checkSteering_nil session⟩
  have passed := tags tag listed
  rw [Option.mem_def] at source
  rw [source] at passed
  simpa [refuseIf_nil] using passed

end

end SmallGateway.Config
