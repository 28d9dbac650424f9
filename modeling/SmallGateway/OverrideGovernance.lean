import SmallGateway.AdmissionPolicy
import SmallGateway.AppSelection

/-!
What admission holds the app overrides to (`override_governance` in `gatewayctl/src/admission.rs`). A number that an
override pins is measured against the number that the fleet pins for the key, and it takes a label to raise that over
the factor. On the routes that leave the key to the fleet this is what a request would have without the override
(`override_governed`). A route or a project with a pin of its own is not looked at (`route_pin_not_compared`).

The numbers are the floating-point numbers of the source, with their product and their order.
-/

namespace SmallGateway

open Config (Scope Route Apps CompiledRoute Finalized Compilers Layer)

variable {Expr : Type}

/-- The override carries the label that justifies it. -/
def Config.Scope.Justified (scope : Scope) : Prop :=
  ∃ spec, .spec spec ∈ scope.labels ∧ spec.key = overrideJustificationLabel

/-- The number that the fleet pins for a key. -/
def fleetCap (engine : RuleEngine) (cfg : Config) (key : String) : Option Float :=
  (cfg.fleet.bind fun fleet => fleet.attribution.pinned[key]?).bind engine.parseF64

/-- The number is over the factor of a baseline, which is above zero. -/
def Raises (factor newVal base : Float) : Prop := base > 0.0 ∧ newVal > base * factor

/-! ### The gate -/

section

variable {engine : RuleEngine} {factor : Float} {cfg : Config}

theorem getElem?_fleetNumericPins (key : String) : (fleetNumericPins engine cfg)[key]? = fleetCap engine cfg key := by
  rw [fleetNumericPins, fleetCap]
  cases cfg.fleet with
  | none => rfl
  | some fleet =>
    rw [Std.TreeMap.getElem?_filterMap']
    rfl

theorem scopeHasLabel_iff {scope : Scope} :
    scopeHasLabel scope overrideJustificationLabel = true ↔ scope.Justified := by
  rw [scopeHasLabel, List.any_eq_true, Scope.Justified]
  constructor
  · rintro ⟨entry, listed, has⟩
    cases entry with
    | base text => cases has
    | spec spec => exact ⟨spec, listed, by simpa using has⟩
  · rintro ⟨spec, listed, has⟩
    exact ⟨.spec spec, listed, by simpa using has⟩

/-- The gate passes exactly when every raised number is justified. -/
theorem overrideGovernance_nil : overrideGovernance engine factor cfg = [] ↔
    ∀ apps, cfg.apps = some apps → ∀ (app : String) scope, apps.overrides[app]? = some scope →
      ∀ (key : String) raw, scope.attribution.pinned[key]? = some raw → ∀ newVal base,
        engine.parseF64 raw = some newVal → fleetCap engine cfg key = some base → Raises factor newVal base →
          scope.Justified := by
  rw [overrideGovernance]
  cases cfg.apps with
  | none => simp
  | some apps =>
    simp only [List.flatMap_eq_nil_iff, List.filterMap_eq_nil_iff, Prod.forall, Option.some.injEq, forall_eq',
      Std.TreeMap.mem_toList_iff_getElem?_eq_some, getElem?_fleetNumericPins]
    constructor
    · intro clean app scope known key raw pinned newVal base read baseline raises
      have own := clean app scope known key raw pinned
      simp only [read, baseline] at own
      by_contra unjustified
      rw [if_pos ⟨raises.1, raises.2, Bool.eq_false_iff.mpr (mt scopeHasLabel_iff.mp unjustified)⟩] at own
      cases own
    · intro justified app scope known key raw pinned
      cases read : engine.parseF64 raw with
      | none => rfl
      | some newVal =>
        cases baseline : fleetCap engine cfg key with
        | none => rfl
        | some base =>
          refine if_neg ?_
          rintro ⟨positive, raised, unlabelled⟩
          have label := scopeHasLabel_iff.mpr (justified app scope known key raw pinned newVal base read baseline
            ⟨positive, raised⟩)
          exact Bool.false_ne_true (unlabelled.symm.trans label)

end

/-! ### What a route pins -/

namespace Config

section

variable {lib : Compilers Expr} {cfg : Config} {key : String}

/-- The key is left to the fleet: neither the route nor its project pins it. -/
structure Route.LeavesToFleet (cfg : Config) (route : Route) (key : String) : Prop where
  own : key ∉ route.scope.attribution.pinned
  project : ∀ name, route.project = some name → ∀ scope, cfg.projects[name]? = some scope →
    key ∉ scope.attribution.pinned

/-- Under an override a route pins what the override pins. -/
theorem override_pinned {apps : Apps} (configured : cfg.apps = some apps) {app : String} {scope : Scope}
    (known : apps.overrides[app]? = some scope) (route : Route) {raw : String}
    (pinned : scope.attribution.pinned[key]? = some raw) :
    ∃ policy, (compileRoute lib cfg route).apps[app]? = some policy ∧ policy.pinned[key]? = some raw := by
  refine ⟨_, override_policy lib configured known route, ?_⟩
  have layer : (compileLayer lib ("app " ++ quoted app) scope).1.pinned = scope.attribution.pinned := rfl
  exact (getElem?_mergeDown_concat Layer.pinned _ _ key).trans (by rw [layer, pinned, Option.some_or])

/-- A route that leaves a key to the fleet has the pin of the fleet. -/
theorem route_pinned {route : Route} (left : route.LeavesToFleet cfg key) :
    (compileRoute lib cfg route).effective.pinned[key]? =
      cfg.fleet.bind fun fleet => fleet.attribution.pinned[key]? := by
  have own : (route.layer lib).pinned[key]? = none := Std.TreeMap.getElem?_eq_none left.own
  have chain : (compileRoute lib cfg route).effective.pinned[key]? =
      (mergeDown Layer.pinned ((fleetLayer lib cfg).toList ++ (projectLayer lib cfg route).toList))[key]? := by
    have composed := getElem?_mergeDown_concat Layer.pinned
      ((fleetLayer lib cfg).toList ++ (projectLayer lib cfg route).toList) (route.layer lib) key
    rw [own, Option.none_or] at composed
    exact composed
  have fleet : (mergeDown Layer.pinned (fleetLayer lib cfg).toList)[key]? =
      cfg.fleet.bind fun fleet => fleet.attribution.pinned[key]? := by
    rw [fleetLayer]
    cases cfg.fleet with
    | none => rfl
    | some scope => exact (getElem?_mergeDown_concat Layer.pinned [] _ key).trans (Option.or_none)
  rw [chain]
  cases found : projectLayer lib cfg route with
  | none => rw [Option.toList_none, List.append_nil, fleet]
  | some layer =>
    have absent : layer.pinned[key]? = none := by
      rw [projectLayer, Option.bind_eq_some_iff] at found
      obtain ⟨name, of, known⟩ := found
      rw [projectLayers, Std.TreeMap.getElem?_map, Option.map_eq_some_iff] at known
      obtain ⟨scope, listed, rfl⟩ := known
      exact Std.TreeMap.getElem?_eq_none (left.project name of scope listed)
    rw [Option.toList_some, getElem?_mergeDown_concat, absent, Option.none_or, fleet]

end

end Config

/-! ### What is admitted -/

/-- What an override of an admitted config is held to. -/
structure Governed (engine : RuleEngine) (factor : Float) (finalized : Finalized Expr) (app : String) (scope : Scope) :
    Prop where
  /-- It is justified in raising a number of the fleet. -/
  fleet : ∀ (key : String) raw, scope.attribution.pinned[key]? = some raw → ∀ newVal base,
    engine.parseF64 raw = some newVal → fleetCap engine finalized.config key = some base → Raises factor newVal base →
      scope.Justified
  /-- So it is in raising what a route has without it, where the key is left to the fleet. -/
  routes : ∀ route compiled, (route, compiled) ∈ finalized.routes → ∀ (key : String) raw,
    scope.attribution.pinned[key]? = some raw →
      ∃ policy, compiled.apps[app]? = some policy ∧ policy.pinned[key]? = some raw ∧
        (route.LeavesToFleet finalized.config key → ∀ without newVal base,
          compiled.effective.pinned[key]? = some without → engine.parseF64 raw = some newVal →
            engine.parseF64 without = some base → Raises factor newVal base → scope.Justified)

theorem RepoLibrary.fromYaml_finalized {lib : RepoLibrary Expr} {flat : String} {finalized : Finalized Expr}
    (parsed : lib.fromYaml flat = .ok finalized) : Config.finalize lib.compilers finalized.config = .ok finalized := by
  rw [fromYaml] at parsed
  cases read : lib.readConfig flat with
  | error e => simp only [read, reduceCtorEq] at parsed
  | ok cfg =>
    simp only [read, Fallible.mapError_ok] at parsed
    obtain ⟨-, rfl⟩ := Config.finalize_ok parsed
    exact parsed

theorem override_governed (policy : AdmissionPolicy) (lib : RepoLibrary Expr) (engine : RuleEngine) (flat : String)
    (admitted : policy.admitYaml lib engine flat = .ok .admits) :
    ∃ finalized, lib.fromYaml flat = .ok finalized ∧ ∀ apps, finalized.config.apps = some apps →
      ∀ (app : String) scope, apps.overrides[app]? = some scope →
        Governed engine policy.factor finalized app scope := by
  obtain ⟨finalized, parsed, builtin, -⟩ := AdmissionPolicy.admitYaml_admits.mp admitted
  refine ⟨finalized, parsed, fun apps configured app scope known => ?_⟩
  have clean : overrideGovernance engine policy.factor finalized.config = [] := by
    simp only [AdmissionPolicy.builtinFailures, List.append_eq_nil_iff] at builtin
    exact builtin.1.2
  have fleet := overrideGovernance_nil.mp clean apps configured app scope known
  refine ⟨fleet, fun route compiled listed key raw pinned => ?_⟩
  obtain ⟨rfl, -⟩ := Config.accepted_route (RepoLibrary.fromYaml_finalized parsed) listed
  obtain ⟨policy, selected, pins⟩ := Config.override_pinned configured known route pinned
  refine ⟨policy, selected, pins, fun left without newVal base pinnedWithout read baseline => ?_⟩
  rw [Config.route_pinned left] at pinnedWithout
  refine fleet key raw pinned newVal base read ?_
  rw [fleetCap, pinnedWithout]
  exact baseline

/-! ### A number that the route pins -/

section Caps

/-- A cap with this number. -/
def capPin (number : String) : Named String := (∅ : Named String).insert "tpm_cap" number

/-- The label that justifies an override. -/
def approved : Config.LabelEntry := .spec ⟨overrideJustificationLabel, some "yes", none, none⟩

/-- A config where one app is pinned to a thousand, with these caps for the fleet and for the route. -/
def cappedConfig (fleet route : Named String) (labels : List Config.LabelEntry) : Config where
  providers := (∅ : Named Config.Provider).insert "openai-main" ⟨.openai, ⟨"127.0.0.1", 6190⟩, none, none, none, none⟩
  fleet := some ⟨⟨["team"], (∅ : Named String).insert "team" "x-attr-team", fleet, ∅, ∅, ∅, none⟩, [], none⟩
  projects := ∅
  routes := [⟨"/openai", "openai-main", none, none, ⟨⟨[], ∅, route, ∅, ∅, ∅, none⟩, [], none⟩⟩]
  apps := some ⟨"team", (∅ : Named Scope).insert "whale" ⟨⟨[], ∅, capPin "1000", ∅, ∅, ∅, none⟩, labels, none⟩⟩
  rejections := ⟨⟨428, "text/plain", "missing team", none⟩, ⟨404, "text/plain", "no route", none⟩, none, none, none⟩
  jwt := none
  otlp := none
  webhook := none
  wasm := ⟨[], false⟩

/-- The text of such a config, with these lines for the caps and for the labels. -/
def cappedText (fleet route labels : String) : String :=
  "providers:\n  openai-main:\n    kind: openai\n    upstream:\n      host: 127.0.0.1\n      port: 6190\n" ++
  "fleet:\n  attribution:\n    required_keys: [team]\n    headers:\n      team: x-attr-team\n" ++ fleet ++
  "apps:\n  key: team\n  overrides:\n    whale:\n      attribution:\n        pinned:\n          tpm_cap: '1000'\n" ++
  labels ++ "routes:\n  - prefix: /openai\n    provider: openai-main\n" ++ route ++
  "rejections:\n  default_response:\n    status: 428\n    content_type: text/plain\n    body: missing team\n" ++
  "  unknown_route:\n    status: 404\n    content_type: text/plain\n    body: no route\n"

/-- A text without a brace has no directives. -/
theorem scanDirectives_plain {text : List Char} (plain : '{' ∉ text) : Config.scanDirectives none text = [] := by
  induction text with
  | nil => rfl
  | cons c rest ih =>
    have other : c ≠ '{' := fun same => plain (same ▸ List.mem_cons_self)
    rw [Config.scanDirectives, ih fun inside => plain (List.mem_cons_of_mem c inside)]
    intro _ same
    exact absurd same other

theorem cappedText_constructs {fleet route labels : String} (fleetPlain : '{' ∉ fleet.toList)
    (routePlain : '{' ∉ route.toList) (labelsPlain : '{' ∉ labels.toList) :
    Config.noForbiddenConstruct (cappedText fleet route labels) = [] := by
  have append {text more : String} (plain : '{' ∉ text.toList) (plainToo : '{' ∉ more.toList) :
      '{' ∉ (text ++ more).toList := by
    rw [String.toList_append, List.mem_append, not_or]
    exact ⟨plain, plainToo⟩
  have plain : '{' ∉ (cappedText fleet route labels).toList := by
    refine append (append (append (append (append (append (append (append ?_ ?_) fleetPlain) ?_) labelsPlain) ?_)
      routePlain) ?_) ?_
    all_goals
      rw [String.toList_ofList]
      decide
  rw [Config.noForbiddenConstruct, Config.directives, scanDirectives_plain plain]
  rfl

/-- A library that reads one text. -/
def cappedLib (flat : String) (cfg : Config) : RepoLibrary Empty where
  parse _ := .error "unknown document"
  write _ := .error "unknown document"
  readConfig text := if text = flat then .ok cfg else .error "unknown config"
  readWaves _ := .error "unknown waves"
  readSets _ := .error "unknown sets"
  readCanary _ := .error "unknown policy"
  utf8Error _ := "invalid utf-8 sequence"
  debugValue _ := "Null"
  compilers := noExpressions
  contentHash flat := flat

/-- An engine that reads numbers so. -/
def cappedEngine (parseF64 : String → Option Float) : RuleEngine where
  readJson _ := .error "unknown document"
  addVariable _ := .ok ()
  compile _ := .error "unknown expression"
  parseF64 := parseF64
  displayF64 _ := "1000"

/-- The policy without rules of the operator, at the default factor of four. -/
def AdmissionPolicy.new : AdmissionPolicy := ⟨[], none⟩

def cappedFinalized (cfg : Config) : Finalized Empty :=
  ⟨cfg, cfg.routes.map fun route => (route, Config.compileRoute noExpressions cfg route)⟩

theorem capped_parsed {flat : String} {cfg : Config} (valid : Config.configErrors noExpressions cfg = []) :
    (cappedLib flat cfg).fromYaml flat = .ok (cappedFinalized cfg) := by
  have read : (cappedLib flat cfg).readConfig flat = .ok cfg := if_pos rfl
  have accepted : Config.finalize noExpressions cfg = .ok (cappedFinalized cfg) := if_pos (List.isEmpty_iff.mpr valid)
  simp only [RepoLibrary.fromYaml, read]
  exact congrArg (Except.mapError _) accepted

theorem capped_admitted {flat : String} {cfg : Config} (parseF64 : String → Option Float)
    (valid : Config.configErrors noExpressions cfg = [])
    (others : attributionKeysPresent (cappedFinalized cfg) = [] ∧ rejectionTemplatesPresent cfg = [] ∧
      Config.noForbiddenConstruct flat = [] ∧ noUnsignedWasmModule cfg = [])
    (governed : overrideGovernance (cappedEngine parseF64) defaultOverrideFactor cfg = []) :
    AdmissionPolicy.new.admitYaml (cappedLib flat cfg) (cappedEngine parseF64) flat = .ok .admits := by
  obtain ⟨attributed, templates, constructs, modules⟩ := others
  refine AdmissionPolicy.admitYaml_admits.mpr ⟨cappedFinalized cfg, capped_parsed valid, ?_, rfl⟩
  have same : (cappedFinalized cfg).config = cfg := rfl
  have factor : AdmissionPolicy.new.factor = defaultOverrideFactor := rfl
  simp only [AdmissionPolicy.builtinFailures, same, factor, attributed, templates, constructs, governed, modules,
    List.append_nil]

/-- The one override of the config. -/
theorem whale_scope {scope own : Scope} {app : String}
    (known : ((∅ : Named Scope).insert "whale" own)[app]? = some scope) : scope = own := by
  rw [Std.TreeMap.getElem?_insert] at known
  split at known
  case isTrue => exact (Option.some.inj known).symm
  case isFalse => cases known

def labelledConfig : Config := cappedConfig (capPin "100") ∅ [approved]

def labelledText : String :=
  cappedText "    pinned:\n      tpm_cap: '100'\n" ""
    "      labels:\n        - key: override-approved\n          value: 'yes'\n"

/-- Ten times the number of the fleet is admitted with the label. -/
theorem labelled_override_governed :
    ∃ finalized, (cappedLib labelledText labelledConfig).fromYaml labelledText = .ok finalized ∧
      ∀ apps, finalized.config.apps = some apps → ∀ (app : String) scope, apps.overrides[app]? = some scope →
        Governed (cappedEngine fun text => (Text.parseU64 text).map Float.ofNat) AdmissionPolicy.new.factor finalized
          app scope := by
  refine override_governed AdmissionPolicy.new _ _ labelledText (capped_admitted _ (by decide +kernel) ?_ ?_)
  · exact ⟨by decide, by decide, cappedText_constructs (by decide) (by decide) (by decide), rfl⟩
  · refine overrideGovernance_nil.mpr fun apps configured app scope known _ _ _ _ _ _ _ _ => ?_
    obtain rfl := Option.some.inj configured
    obtain rfl := whale_scope known
    exact ⟨_, List.mem_cons_self, rfl⟩

/-- In whole numbers: what an override pins is no more than the factor of what the route has without it. -/
def BoundedByRoute (factor : Nat) (finalized : Finalized Expr) : Prop :=
  ∀ apps, finalized.config.apps = some apps → ∀ (app : String) scope, apps.overrides[app]? = some scope →
    ∀ route compiled, (route, compiled) ∈ finalized.routes → ∀ (key : String) raw without newVal base,
      scope.attribution.pinned[key]? = some raw → compiled.effective.pinned[key]? = some without →
        Text.parseU64 raw = some newVal → Text.parseU64 without = some base → 0 < base →
          newVal ≤ factor * base ∨ scope.Justified

def routeCapConfig : Config := cappedConfig ∅ (capPin "100") []

def routeCapText : String :=
  cappedText "" "    attribution:\n      pinned:\n        tpm_cap: '100'\n" ""

/-- Ten times the number of the route is admitted without a label, whatever is read as a number. -/
theorem route_pin_not_compared :
    (∀ parseF64, AdmissionPolicy.new.admitYaml (cappedLib routeCapText routeCapConfig) (cappedEngine parseF64)
      routeCapText = .ok .admits) ∧
      (cappedLib routeCapText routeCapConfig).fromYaml routeCapText = .ok (cappedFinalized routeCapConfig) ∧
      ¬ BoundedByRoute 4 (cappedFinalized routeCapConfig) := by
  refine ⟨fun parseF64 => ?_, capped_parsed (by decide +kernel), fun bounded => ?_⟩
  · refine capped_admitted parseF64 (by decide +kernel) ?_ ?_
    · exact ⟨by decide, by decide, cappedText_constructs (by decide) (by decide) (by decide), rfl⟩
    · refine overrideGovernance_nil.mpr fun _ _ _ _ _ key _ _ _ _ _ baseline => ?_
      have none : fleetCap (cappedEngine parseF64) routeCapConfig key = none := by
        simp [fleetCap, routeCapConfig, cappedConfig]
      rw [none] at baseline
      cases baseline
  · have thousand : Text.parseU64 "1000" = some 1000 := by simp [Text.parseU64]
    have hundred : Text.parseU64 "100" = some 100 := by simp [Text.parseU64]
    have held := bounded _ rfl "whale" _ Std.TreeMap.getElem?_insert_self _ _ List.mem_cons_self "tpm_cap" "1000" "100"
      1000 100 Std.TreeMap.getElem?_insert_self (by decide) thousand hundred (by decide)
    rcases held with most | ⟨spec, listed, -⟩
    · exact absurd most (by decide)
    · cases listed

end Caps

end SmallGateway
