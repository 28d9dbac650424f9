import SmallGateway.Origins

/-!
The app that a request resolves to selects the override that the request is held to, and the labels are resolved once
more under it (`resolve_with_app_scope` in `gatewayd/src/proxy_support.rs`). An accepted override sets no value for the
key that selects it, so that key keeps its value, unless it comes from the caller and the override leaves it out of its
own list of required keys: then it has no value at all (`selector_stable_iff`).
-/

namespace SmallGateway

namespace Config

variable {Expr : Type} {lib : Compilers Expr} {cfg : Config}

/-- An override whose required keys keep the key: it has none of its own, splices those above it, or names the key. -/
def Scope.keepsRequired (scope : Scope) (key : String) : Prop :=
  scope.attribution.requiredKeys = [] ∨ baseMarker ∈ scope.attribution.requiredKeys ∨
    key ∈ scope.attribution.requiredKeys

/-! ### Required keys -/

theorem mem_spliceOnto (parent child : List String) (spliced : Bool) (key : String) :
    key ∈ spliceOnto parent spliced child ↔
      (spliced = false ∧ baseMarker ∈ child ∧ key ∈ parent) ∨ (key ∈ child ∧ key ≠ baseMarker) := by
  induction child generalizing spliced with
  | nil => simp [spliceOnto]
  | cons entry rest ih =>
    by_cases marker : entry = baseMarker
    · subst marker
      rw [spliceOnto, if_pos rfl, List.mem_append, ih]
      cases spliced <;> grind
    · rw [spliceOnto, if_neg marker, List.mem_cons, ih]
      grind

theorem mem_spliceRequired (parent child : List String) (key : String) :
    key ∈ spliceRequired parent child ↔
      ((child = [] ∨ baseMarker ∈ child) ∧ key ∈ parent) ∨ (key ∈ child ∧ key ≠ baseMarker) := by
  unfold spliceRequired
  split
  case isTrue empty =>
    rw [List.isEmpty_iff] at empty
    simp [empty]
  case isFalse listed =>
    rw [List.isEmpty_iff] at listed
    simp [mem_spliceOnto, listed]

/-! ### An override below a chain -/

section

variable {base : Rejections} {chain : List (Layer Expr)} {layer : Layer Expr} {key : String}

/-- What a layer adds to a chain: its required keys are spliced onto those of the chain. -/
theorem compose_required (appCtx : String) :
    (compose base (chain ++ [layer]) appCtx).1.requiredKeys =
      (spliceRequired (chain.foldl (fun required layer => spliceRequired required layer.requiredKeys) [])
        layer.requiredKeys).eraseDups := by
  simp [compose]

/-- The last layer of a chain wins. -/
theorem getElem?_mergeDown_concat {α : Type} (field : Layer Expr → Named α) (chain : List (Layer Expr))
    (layer : Layer Expr) (key : String) :
    (mergeDown field (chain ++ [layer]))[key]? = (field layer)[key]?.or (mergeDown field chain)[key]? := by
  rw [mergeDown, List.foldl_append, List.foldl_cons, List.foldl_nil, getElem?_overlay, mergeDown]

theorem getElem?_mergeDown {α : Type} (field : Layer Expr → Named α) (absent : key ∉ field layer) :
    (mergeDown field (chain ++ [layer]))[key]? = (mergeDown field chain)[key]? := by
  rw [getElem?_mergeDown_concat, Std.TreeMap.getElem?_eq_none absent, Option.none_or]

/-- A key that the last layer of a chain gives no value has the origin and the value that the chain gives it. -/
structure SameOrigin (upper lower : EffectivePolicy Expr) (key : String) : Prop where
  pinned : lower.pinned[key]? = upper.pinned[key]?
  fromClaims : lower.fromClaims[key]? = upper.fromClaims[key]?
  derived : lower.derived[key]? = upper.derived[key]?

theorem compose_sameOrigin (ctx appCtx : String) (pinned : key ∉ layer.pinned) (claims : key ∉ layer.fromClaims)
    (derived : key ∉ layer.derived) :
    SameOrigin (compose base chain ctx).1 (compose base (chain ++ [layer]) appCtx).1 key :=
  ⟨getElem?_mergeDown Layer.pinned pinned, getElem?_mergeDown Layer.fromClaims claims,
    getElem?_mergeDown Layer.derived derived⟩

theorem SameOrigin.established {upper lower : EffectivePolicy Expr} (same : SameOrigin upper lower key) :
    lower.established key = upper.established key := by
  simp only [EffectivePolicy.established, Std.TreeMap.contains_eq_isSome_getElem?, same.pinned, same.fromClaims,
    same.derived]

theorem mem_keyUniverse {policy : EffectivePolicy Expr} :
    key ∈ policy.keyUniverse ↔ key ∈ policy.requiredKeys ∨ policy.established key = true := by
  simp only [EffectivePolicy.keyUniverse, Std.TreeSet.mem_ofList, List.contains_eq_mem, List.mem_append,
    Std.TreeMap.mem_keys, decide_eq_true_eq, EffectivePolicy.established, Bool.or_eq_true,
    Std.TreeMap.contains_iff_mem]
  tauto

/-- A key that a chain knows is known below an override that gives it no value, when the gateway establishes it or the
    override keeps it required. -/
theorem mem_keyUniverse_override (ctx appCtx : String) (known : key ∈ (compose base chain ctx).1.keyUniverse)
    (same : SameOrigin (compose base chain ctx).1 (compose base (chain ++ [layer]) appCtx).1 key) :
    key ∈ (compose base (chain ++ [layer]) appCtx).1.keyUniverse ↔
      (compose base chain ctx).1.established key = true ∨ layer.requiredKeys = [] ∨ baseMarker ∈ layer.requiredKeys ∨
        key ∈ layer.requiredKeys := by
  rw [mem_keyUniverse, same.established, compose_required, List.mem_eraseDups, mem_spliceRequired]
  rw [mem_keyUniverse] at known
  by_cases established : (compose base chain ctx).1.established key = true
  · simp [established]
  · have required := known.resolve_right established
    simp only [compose, List.mem_eraseDups] at required
    by_cases marker : key = baseMarker
    · subst marker
      simp only [required, established]
      tauto
    · simp only [required, established]
      tauto

end

/-! ### An accepted override -/

/-- A key that no entry puts into a map stays out of it. -/
theorem not_mem_foldl {α β : Type} {key : String} {entries : List (String × α)}
    (others : ∀ entry ∈ entries, entry.1 ≠ key) {enter : Named β → String × α → Named β}
    (one : ∀ named entry, entry.1 ≠ key → key ∉ named → key ∉ enter named entry) {named : Named β} (fresh : key ∉ named) :
    key ∉ entries.foldl enter named := by
  induction entries generalizing named with
  | nil => exact fresh
  | cons first rest ih =>
    obtain ⟨differs, later⟩ := List.forall_mem_cons.mp others
    exact ih later (one named first differs fresh)

theorem compileDerived_of_not_mem {derived : Named String} {key : String} (absent : key ∉ derived) :
    key ∉ compileDerived lib derived := by
  have others : ∀ entry ∈ derived.toList, entry.1 ≠ key := by
    intro entry listed same
    have found := Std.TreeMap.mem_toList_iff_getElem?_eq_some.mp listed
    apply absent
    rw [Std.TreeMap.mem_iff_isSome_getElem?, ← same, found]
    rfl
  refine not_mem_foldl others ?_ (by simp)
  rintro compiled ⟨name, source⟩ differs fresh
  dsimp only
  split
  · simpa [Std.TreeMap.mem_insert, fresh] using differs
  · exact fresh

/-- An override of an accepted config gives the key that selects it no value. -/
theorem accepted_override {finalized : Finalized Expr} (accepted : finalize lib cfg = .ok finalized) {apps : Apps}
    (configured : cfg.apps = some apps) {value : String} {scope : Scope} (known : apps.overrides[value]? = some scope) :
    apps.key ∉ scope.attribution.pinned ∧ apps.key ∉ scope.attribution.fromClaims ∧
      apps.key ∉ scope.attribution.derived := by
  obtain ⟨clean, -⟩ := finalize_ok accepted
  have scopes : scopeErrors lib cfg = [] := by
    simp only [configErrors, List.append_eq_nil_iff] at clean
    exact clean.1.1.2
  simp only [scopeErrors, configured, List.append_eq_nil_iff, List.flatMap_eq_nil_iff] at scopes
  have own := scopes.2.2 (value, scope) (Std.TreeMap.mem_toList_iff_getElem?_eq_some.mpr known)
  simp only [checkOverride, List.append_eq_nil_iff] at own
  obtain ⟨-, selector⟩ := own
  simp only [checkSelector, List.flatMap_cons, List.append_eq_nil_iff, refuseIf_nil] at selector
  obtain ⟨pinned, claims, derived, -⟩ := selector
  simp only [Std.TreeMap.mem_iff_contains, pinned, claims, derived, Bool.false_eq_true, not_false_eq_true, and_self]

/-- The policy below an override, as it is composed. -/
theorem override_policy (lib : Compilers Expr) {apps : Apps} (configured : cfg.apps = some apps) {value : String}
    {scope : Scope} (known : apps.overrides[value]? = some scope) (route : Route) :
    (compileRoute lib cfg route).apps[value]? =
      some (compose cfg.rejections
        (routeChain lib cfg route ++ [(compileLayer lib ("app " ++ quoted value) scope).1])
        (appContext route value)).1 := by
  simp [compileRoute, appLayers, configured, Std.TreeMap.getElem?_map, known]

end Config

namespace Attribution

open Config (Compilers Finalized Route CompiledRoute EffectivePolicy Scope Apps SameOrigin)

variable {Expr : Type} {json : JsonText} {eval : Evaluator Expr} {claims : Option Claims} {ctx : EvalCtx}

/-- A key with the same origin under two policies resolves to the same tag. -/
theorem resolveKey_sameOrigin {upper lower : EffectivePolicy Expr} {key : String} (same : SameOrigin upper lower key)
    (callerValue : String → Option String) :
    resolveKey json lower callerValue claims (derivedValue eval lower ctx) key =
      resolveKey json upper callerValue claims (derivedValue eval upper ctx) key := by
  have derives : lower.derived.contains key = upper.derived.contains key := by
    simp only [Std.TreeMap.contains_eq_isSome_getElem?, same.derived]
  have value : derivedValue eval lower ctx key = derivedValue eval upper ctx key := by
    rw [derivedValue, derivedValue, same.derived]
  unfold resolveKey
  rw [same.pinned, same.fromClaims, derives, value]

/-- A request on a route of an accepted config whose app selects an override keeps its app under that override exactly
    when the gateway establishes the key or the override keeps it required. -/
theorem selector_stable_iff (lib : Compilers Expr) (json : JsonText) (eval : Evaluator Expr) (cfg : Config)
    (finalized : Finalized Expr) (accepted : Config.finalize lib cfg = .ok finalized) (route : Route)
    (compiled : CompiledRoute Expr) (listed : (route, compiled) ∈ finalized.routes) (apps : Apps)
    (configured : cfg.apps = some apps) (head : RequestHead) (path : String) (claims : Option Claims)
    (app : String) (scope : Scope) (registered : apps.overrides[app]? = some scope)
    (selected : (resolvePolicy json eval compiled.effective (callerAttrs head compiled.effective.headers) claims
      (evalCtx head path claims)).value apps.key = some app) :
    (attributed json eval compiled cfg.apps head path claims).2.value apps.key = some app ↔
      compiled.effective.established apps.key = true ∨ scope.keepsRequired apps.key := by
  obtain ⟨rfl, -⟩ := Config.accepted_route accepted listed
  obtain ⟨pinned, fromClaims, derived⟩ := Config.accepted_override accepted configured registered
  have override := Config.override_policy lib configured registered route
  set upper := (Config.compileRoute lib cfg route).effective with hupper
  set lower := (Config.compose cfg.rejections
    (Config.routeChain lib cfg route ++ [(Config.compileLayer lib ("app " ++ Config.quoted app) scope).1])
    (Config.appContext route app)).1 with hlower
  have same : SameOrigin upper lower apps.key :=
    Config.compose_sameOrigin route.label (Config.appContext route app) pinned fromClaims
      (Config.compileDerived_of_not_mem derived)
  have held : (attributed json eval (Config.compileRoute lib cfg route) cfg.apps head path claims).2 =
      resolvePolicy json eval lower (callerAttrs head upper.headers) claims (evalCtx head path claims) := by
    simp only [attributed, resolveWithAppScope, selectedApp, configured, Option.bind_some, ← hupper, selected, override]
  rw [Resolution.value, resolvePolicy, resolve_tagFor] at selected
  have known : apps.key ∈ upper.keyUniverse := by
    by_contra unknown
    rw [if_neg unknown] at selected
    cases selected
  rw [if_pos known] at selected
  have kept := Config.mem_keyUniverse_override route.label (Config.appContext route app) known same
  rw [held, Resolution.value, resolvePolicy, resolve_tagFor, resolveKey_sameOrigin same]
  by_cases inside : apps.key ∈ lower.keyUniverse
  · rw [if_pos inside]
    exact ⟨fun _ => kept.mp inside, fun _ => selected⟩
  · rw [if_neg inside]
    constructor
    · intro lost
      cases lost
    · exact fun keeps => absurd (kept.mpr keeps) inside

/-- An override that adds the team to the keys required above it. -/
def batchScope : Scope := ⟨⟨["<base>", "team"], ∅, ∅, ∅, ∅, ∅, none⟩, [], none⟩

/-- An override that requires the team alone. -/
def chatScope : Scope := ⟨⟨["team"], ∅, ∅, ∅, ∅, ∅, none⟩, [], none⟩

def replacedApps : Apps := ⟨"app", ((∅ : Named Scope).insert "batch" batchScope).insert "chat" chatScope⟩

/-- The team is pinned for the fleet, and the app comes from the caller. -/
def replacedConfig : Config where
  providers := (∅ : Named Config.Provider).insert "b" ⟨.bedrock, ⟨"bedrock", 80⟩, none, none, none, none⟩
  fleet := some ⟨⟨["app"], (∅ : Named String).insert "app" "x-app", (∅ : Named String).insert "team" "ml", ∅, ∅, ∅,
    none⟩, [], none⟩
  projects := ∅
  routes := [gatedRoute]
  apps := some replacedApps
  rejections := ⟨⟨400, "text", "", none⟩, ⟨404, "text", "", none⟩, none, none, none⟩
  jwt := none
  otlp := none
  webhook := none
  wasm := ⟨[], false⟩

/-- A request of the app whose name has the bytes. -/
def appHead (app : List UInt8) : RequestHead := ⟨"POST", [("x-app", app)]⟩

theorem replaced_accepted : Config.finalize noExpressions replacedConfig =
    .ok ⟨replacedConfig, [(gatedRoute, Config.compileRoute noExpressions replacedConfig gatedRoute)]⟩ :=
  if_pos (by decide +kernel)

theorem batch_keeps_its_app :
    (attributed noTexts noValues (Config.compileRoute noExpressions replacedConfig gatedRoute) replacedConfig.apps
      (appHead [98, 97, 116, 99, 104]) "/" none).2.value "app" = some "batch" := by
  have registered : replacedApps.overrides["batch"]? = some batchScope := by
    rw [replacedApps, Std.TreeMap.getElem?_insert, if_neg (by decide), Std.TreeMap.getElem?_insert_self]
  exact (selector_stable_iff noExpressions noTexts noValues replacedConfig _ replaced_accepted gatedRoute _
    List.mem_cons_self replacedApps rfl (appHead [98, 97, 116, 99, 104]) "/" none "batch" batchScope registered
    (by decide +kernel)).mpr (.inr (.inr (.inl List.mem_cons_self)))

/-- The override of the chat app is selected, and the request has no app under it. -/
theorem chat_loses_its_app :
    let compiled := Config.compileRoute noExpressions replacedConfig gatedRoute
    let head := appHead [99, 104, 97, 116]
    Config.finalize noExpressions replacedConfig = .ok ⟨replacedConfig, [(gatedRoute, compiled)]⟩ ∧
      (resolvePolicy noTexts noValues compiled.effective (callerAttrs head compiled.effective.headers) none
        (evalCtx head "/" none)).value "app" = some "chat" ∧
      compiled.apps.contains "chat" = true ∧
      (attributed noTexts noValues compiled replacedConfig.apps head "/" none).2.value "app" = none :=
  ⟨if_pos (by decide +kernel), by decide +kernel, by decide, by decide +kernel⟩

end Attribution

end SmallGateway
