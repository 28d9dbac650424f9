import SmallGateway.ConstructGate
import SmallGateway.Rendering

/-!
Admission of a config repo (`gatewayctl/src/admission.rs`). A candidate text has to be a config that passes the built-in
rules and the rules of the operator. A repo is admitted when its unstamped render passes, and for each GatewaySet the
render for the labels that its own selector names first. The main result of the module says which documents these are
(`admitResolved_admits`).

The rule language is taken as given, and so are the reading and the printing of floating-point numbers.
-/

namespace SmallGateway

open Config (RuleFailure noForbiddenConstruct)

open Yaml (Mapping)

/-- The factor over which an override of a pinned cap has to be labelled. -/
def defaultOverrideFactor : Float := 4.0

def overrideJustificationLabel : String := "override-approved"

inductive AdmissionVerdict where
  | admits
  | block (failures : List RuleFailure)
  deriving DecidableEq

def AdmissionVerdict.of (failures : List RuleFailure) : AdmissionVerdict :=
  if failures.isEmpty then .admits else .block failures

def AdmissionVerdict.failures : AdmissionVerdict → List RuleFailure
  | .admits => []
  | .block failures => failures

/-! ### The rules of the operator -/

/-- What a rule evaluates to: a truth value, or something else by the name of its type. -/
inductive RuleValue where
  | bool (value : Bool)
  | other (typeName : String)

/-- The rule language: the reader of a candidate as a document of it, the binding of the document to `config`, and
    programs over it. Floating-point numbers are read and printed as the language of the source does. -/
structure RuleEngine where
  readJson : String → Except String Json.Value
  addVariable : Json.Value → Except String Unit
  compile : String → Except String (Json.Value → Except String RuleValue)
  parseF64 : String → Option Float
  displayF64 : Float → String

structure CelRule where
  id : String
  expr : String
  message : String

/-- A candidate that cannot be read is an empty document to the rules. -/
def candidateToJson (engine : RuleEngine) (flatYaml : String) : Json.Value :=
  (engine.readJson flatYaml).toOption.getD (.object [])

def evalCelRule (engine : RuleEngine) (doc : Json.Value) (rule : CelRule) : Option RuleFailure :=
  match engine.compile rule.expr with
  | .error e => some ⟨rule.id, "admission rule expression failed to compile (" ++ e ++ "): " ++ rule.expr⟩
  | .ok program =>
    match engine.addVariable doc with
    | .error e => some ⟨rule.id, "admission rule context build error: " ++ e⟩
    | .ok () =>
      match program doc with
      | .ok (.bool true) => none
      | .ok (.bool false) => some ⟨rule.id, rule.message⟩
      | .ok (.other typeName) =>
        some ⟨rule.id, rule.message ++ " (rule produced " ++ typeName ++
          ", expected a bool — a non-bool admission rule is treated as a block)"⟩
      | .error e => some ⟨rule.id, rule.message ++ " (rule eval error: " ++ e ++ ")"⟩

/-! ### The built-in rules -/

section

variable {Expr : Type}

/-- Every route enforces an attribution key. -/
def attributionKeysPresent (finalized : Config.Finalized Expr) : List RuleFailure :=
  finalized.routes.filterMap fun (route, compiled) =>
    if compiled.effective.requiredKeys.isEmpty then
      some ⟨"GB-1", "route " ++ Text.debugStr route.pathPrefix ++ " has no effective attribution required_keys — " ++
        "every route must enforce at least one attribution key (GB-1)"⟩
    else none

/-- The bodies of the two required rejection templates are not blank. -/
def rejectionTemplatesPresent (cfg : Config) : List RuleFailure :=
  (if Text.isBlank cfg.rejections.defaultResponse.body then
      [⟨"GB-4", "rejections.default_response.body is empty — the operator must own the rejection body (GB-4), never " ++
        "ship a blank 4xx"⟩]
    else []) ++
  if Text.isBlank cfg.rejections.unknownRoute.body then
    [⟨"GB-4", "rejections.unknown_route.body is empty — the operator must own the rejection body (GB-4)"⟩]
  else []

/-- The pinned values of the fleet that are numbers. -/
def fleetNumericPins (engine : RuleEngine) (cfg : Config) : Named Float :=
  match cfg.fleet with
  | none => ∅
  | some fleet => fleet.attribution.pinned.filterMap fun _ value => engine.parseF64 value

def scopeHasLabel (scope : Config.Scope) (key : String) : Bool :=
  scope.labels.any fun entry =>
    match entry with
    | .spec spec => spec.key == key
    | .base _ => false

/-- An override that raises a pinned number of the fleet over the factor is labelled. -/
def overrideGovernance (engine : RuleEngine) (factor : Float) (cfg : Config) : List RuleFailure :=
  match cfg.apps with
  | none => []
  | some apps =>
    let baseline := fleetNumericPins engine cfg
    apps.overrides.toList.flatMap fun (appValue, scope) =>
      scope.attribution.pinned.toList.filterMap fun (key, raw) =>
        match engine.parseF64 raw, baseline[key]? with
        | some newVal, some base =>
          if base > 0.0 ∧ newVal > base * factor ∧ scopeHasLabel scope overrideJustificationLabel = false then
            some ⟨"override-factor", "app " ++ Text.debugStr appValue ++ " overrides pinned " ++ Text.debugStr key ++
              " to " ++ engine.displayF64 newVal ++ " — more than " ++ engine.displayF64 factor ++
              "x the fleet baseline " ++ engine.displayF64 base ++ " — without the " ++
              Text.debugStr overrideJustificationLabel ++
              " label; a blast-radius override must be labeled to pass admission"⟩
          else none
        | _, _ => none

/-- Every policy module carries a signature. -/
def noUnsignedWasmModule (cfg : Config) : List RuleFailure :=
  cfg.wasm.modules.filterMap fun module =>
    if module.signature.any fun signature => !Text.isBlank signature then none
    else some ⟨"no-unsigned-wasm-module", "wasm module " ++ Text.debugStr module.name ++ " carries no signature — " ++
      "unsigned WASM modules are rejected at admission; sign it with the operator key (docs/02)"⟩

end

/-! ### The policy -/

/-- The labels that satisfy a selector with the first value of each term. -/
def representativeLabels (selector : Selector) : Labels :=
  selector.terms.foldl
    (fun labels term =>
      match term.inValues with
      | [] => labels
      | value :: _ => labels.insert term.label value)
    ∅

structure AdmissionPolicy where
  celRules : List CelRule
  overrideFactor : Option Float

namespace AdmissionPolicy

variable {Expr : Type} (policy : AdmissionPolicy) (lib : RepoLibrary Expr) (engine : RuleEngine)

/-- The policy of the control plane (`admission_policy` in `gatewayctl/src/main.rs`). -/
def serve : AdmissionPolicy where
  celRules := [⟨"route-list-non-empty", "size(config.routes) > 0", "the config must define at least one route"⟩]
  overrideFactor := none

def factor : Float := policy.overrideFactor.getD defaultOverrideFactor

def builtinFailures (flatYaml : String) (finalized : Config.Finalized Expr) : List RuleFailure :=
  attributionKeysPresent finalized ++ rejectionTemplatesPresent finalized.config ++ noForbiddenConstruct flatYaml ++
    overrideGovernance engine policy.factor finalized.config ++ noUnsignedWasmModule finalized.config

def ruleFailures (flatYaml : String) : List RuleFailure :=
  policy.celRules.filterMap (evalCelRule engine (candidateToJson engine flatYaml))

/-- Admits or blocks a candidate text. One that is no config is unrenderable. -/
def admitYaml (flatYaml : String) : Except String AdmissionVerdict :=
  match lib.fromYaml flatYaml with
  | .error e => .error (invalidError e)
  | .ok finalized => .ok (.of (policy.builtinFailures engine flatYaml finalized ++ policy.ruleFailures engine flatYaml))

/-- The failures of a render. -/
def admitRender (what : String) (rendered : Rendered) : Except String (List RuleFailure) :=
  match Text.fromUtf8? rendered.configBytes with
  | none => .error (what ++ " not utf-8: " ++ lib.utf8Error rendered.configBytes)
  | some flat => (policy.admitYaml lib engine flat).map (·.failures)

/-- The failures of the render for the labels that stand for a set. -/
def admitSet (resolved : ResolvedRepo) (sets : List GatewaySet) (set : GatewaySet) : Except String (List RuleFailure) :=
  do
  let stamped ← lib.renderResolvedForNode resolved sets (representativeLabels set.selector)
  let failures ← policy.admitRender lib engine ("gatewayset " ++ Text.debugStr set.name ++ " render") stamped
  return failures.map fun failure =>
    { failure with detail := "via GatewaySet " ++ Text.debugStr set.name ++ ": " ++ failure.detail }

end AdmissionPolicy

/-- A canary policy that cannot be read is a failure of admission. -/
def RepoLibrary.canaryFailures {Expr : Type} (lib : RepoLibrary Expr) (files : RepoFiles) : List RuleFailure :=
  match files.lookup "canary.yaml" with
  | none => []
  | some bytes =>
    match Text.fromUtf8? bytes with
    | none => [⟨"canary-policy", "canary.yaml is not utf-8: " ++ lib.utf8Error bytes⟩]
    | some text =>
      match parseCanaryPolicy lib.readCanary text with
      | .ok _ => []
      | .error e => [⟨"canary-policy", e⟩]

namespace AdmissionPolicy

variable {Expr : Type} (policy : AdmissionPolicy) (lib : RepoLibrary Expr) (engine : RuleEngine)

def admitResolved (resolved : ResolvedRepo) : Except String AdmissionVerdict := do
  let base ← policy.admitRender lib engine "rendered config" (← lib.renderResolved resolved)
  let sets ← lib.readGatewaysets resolved.files
  let stamped ← sets.mapM (policy.admitSet lib engine resolved sets)
  return .of (base ++ stamped.flatten ++ lib.canaryFailures resolved.files)

/-- Admits what a source resolves to. -/
def admitSource (source : Except String ResolvedRepo) : Except String AdmissionVerdict := do
  policy.admitResolved lib engine (← source)

/-! ### What admission has looked at -/

/-- The canonical text of a document passes. -/
def Passes (doc : Mapping) : Prop :=
  ∃ flat, lib.canonicalText doc = .ok flat ∧ policy.admitYaml lib engine flat = .ok .admits

end AdmissionPolicy

/-- The documents that admission looks at: the one without a stamp, and for each set the one for the labels that stand
    for it. -/
def triedDocs (sets : List GatewaySet) (doc : Mapping) : List Mapping :=
  doc :: sets.map fun set => stamp sets doc (representativeLabels set.selector)

theorem AdmissionVerdict.of_admits {failures : List RuleFailure} :
    AdmissionVerdict.of failures = .admits ↔ failures = [] := by
  unfold AdmissionVerdict.of
  split
  case isTrue none => exact iff_of_true rfl (List.isEmpty_iff.mp none)
  case isFalse some => exact iff_of_false nofun fun none => some (List.isEmpty_iff.mpr none)

theorem AdmissionVerdict.failures_of (failures : List RuleFailure) :
    (AdmissionVerdict.of failures).failures = failures := by
  unfold AdmissionVerdict.of
  split
  case isTrue none => exact (List.isEmpty_iff.mp none).symm
  case isFalse => rfl

/-- A canary policy that is no failure can be read. -/
theorem RepoLibrary.canaryFailures_nil {Expr : Type} {lib : RepoLibrary Expr} {files : RepoFiles} :
    lib.canaryFailures files = [] ↔ ∃ canary, lib.readCanaryPolicy files = .ok canary := by
  unfold canaryFailures readCanaryPolicy readSideFile
  cases files.lookup "canary.yaml" with
  | none => exact iff_of_true rfl ⟨_, rfl⟩
  | some bytes =>
    cases decoded : Text.fromUtf8? bytes with
    | none => simp [decoded]
    | some text =>
      cases parsed : parseCanaryPolicy lib.readCanary text with
      | error e => simp [decoded, parsed, Except.mapError]
      | ok canary => simp [decoded, parsed, Except.mapError]

namespace AdmissionPolicy

variable {Expr : Type} {policy : AdmissionPolicy} {lib : RepoLibrary Expr} {engine : RuleEngine}

theorem admitYaml_admits {flat : String} :
    policy.admitYaml lib engine flat = .ok .admits ↔ ∃ finalized, lib.fromYaml flat = .ok finalized ∧
      policy.builtinFailures engine flat finalized = [] ∧ policy.ruleFailures engine flat = [] := by
  unfold admitYaml
  cases lib.fromYaml flat with
  | error e => simp
  | ok finalized => simp [AdmissionVerdict.of_admits]

/-- The text of a render has no failures exactly when it is admitted. -/
theorem admitRender_nil {what flat hash commit : String} :
    policy.admitRender lib engine what ⟨flat.toUTF8.toList, hash, commit⟩ = .ok [] ↔
      policy.admitYaml lib engine flat = .ok .admits := by
  unfold admitRender
  simp only [Text.fromUtf8?_bytes, Fallible.map_ok]
  constructor
  · rintro ⟨verdict, judged, none⟩
    unfold admitYaml at judged ⊢
    split at judged
    case h_1 => cases judged
    case h_2 finalized parsed =>
      rw [← Except.ok.inj judged, AdmissionVerdict.failures_of] at none
      simp only [none, AdmissionVerdict.of, List.isEmpty_nil, if_true]
  · intro judged
    exact ⟨.admits, judged, rfl⟩

/-- A document passes exactly when it renders to a text without failures. -/
theorem passes_iff_render {doc : Mapping} (resolved : ResolvedRepo) (what : String) :
    policy.Passes lib engine doc ↔ ∃ rendered, lib.finalize doc resolved = .ok rendered ∧
      policy.admitRender lib engine what rendered = .ok [] := by
  unfold Passes
  constructor
  · rintro ⟨flat, written, judged⟩
    obtain ⟨finalized, accepted, -⟩ := admitYaml_admits.mp judged
    exact ⟨_, RepoLibrary.finalize_ok.mpr ⟨flat, finalized, written, accepted, rfl⟩, admitRender_nil.mpr judged⟩
  · rintro ⟨rendered, made, none⟩
    obtain ⟨flat, finalized, written, -, rfl⟩ := RepoLibrary.finalize_ok.mp made
    exact ⟨flat, written, admitRender_nil.mp none⟩

theorem admitSet_nil {resolved : ResolvedRepo} {sets : List GatewaySet} {set : GatewaySet} {doc : Mapping}
    (assembled : lib.assembleFlatDoc resolved.files = .ok doc) :
    policy.admitSet lib engine resolved sets set = .ok [] ↔
      policy.Passes lib engine (stamp sets doc (representativeLabels set.selector)) := by
  have stamped (labels : Labels) :
      lib.renderResolvedForNode resolved sets labels = lib.finalize (stamp sets doc labels) resolved := by
    rw [RepoLibrary.renderResolvedForNode, assembled]
    rfl
  rw [passes_iff_render resolved ("gatewayset " ++ Text.debugStr set.name ++ " render")]
  unfold admitSet
  simp only [Fallible.bind_ok, stamped]
  constructor
  · rintro ⟨rendered, made, failures, judged, none⟩
    rw [List.map_eq_nil_iff.mp (Except.ok.inj none)] at judged
    exact ⟨rendered, made, judged⟩
  · rintro ⟨rendered, made, judged⟩
    exact ⟨rendered, made, [], judged, rfl⟩

/-- A repo is admitted exactly when every document that admission looks at passes, and its sets and its canary policy
    can be read. -/
theorem admitResolved_admits {resolved : ResolvedRepo} :
    policy.admitResolved lib engine resolved = .ok .admits ↔
      ∃ doc sets, lib.assembleFlatDoc resolved.files = .ok doc ∧ lib.readGatewaysets resolved.files = .ok sets ∧
        (∀ tried ∈ triedDocs sets doc, policy.Passes lib engine tried) ∧
        ∃ canary, lib.readCanaryPolicy resolved.files = .ok canary := by
  unfold admitResolved RepoLibrary.renderResolved
  simp only [Fallible.bind_ok, triedDocs, List.forall_mem_cons, List.forall_mem_map]
  constructor
  · rintro ⟨rendered, ⟨doc, assembled, made⟩, base, judged, sets, read, failures, mapped, verdict⟩
    have none := AdmissionVerdict.of_admits.mp (Except.ok.inj verdict)
    simp only [List.append_eq_nil_iff, List.flatten_eq_nil_iff] at none
    obtain ⟨⟨rfl, stamped⟩, canary⟩ := none
    refine ⟨doc, sets, assembled, read, ⟨(passes_iff_render resolved _).mpr ⟨rendered, made, judged⟩, ?_⟩,
      RepoLibrary.canaryFailures_nil.mp canary⟩
    intro set listed
    obtain ⟨own, reported, judgedSet⟩ := Fallible.exists_of_mem_mapM mapped set listed
    rw [stamped own reported] at judgedSet
    exact (admitSet_nil assembled).mp judgedSet
  · rintro ⟨doc, sets, assembled, read, ⟨base, stamped⟩, canary⟩
    obtain ⟨rendered, made, judged⟩ := (passes_iff_render resolved _).mp base
    refine ⟨rendered, ⟨doc, assembled, made⟩, [], judged, sets, read, sets.map fun _ => [], ?_, ?_⟩
    · exact Fallible.mapM_ok_of_forall fun set listed => (admitSet_nil assembled).mpr (stamped set listed)
    · rw [RepoLibrary.canaryFailures_nil.mpr canary]
      simp [AdmissionVerdict.of, pure, Except.pure]

end AdmissionPolicy

end SmallGateway
