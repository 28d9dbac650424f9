import SmallGateway.Validate

/-!
The chain of policy scopes, fleet, project, route and app (`gateway-core/src/scope.rs`). Each scope is compiled to a
layer, the layers of a chain are composed into one policy, and every policy that a request can meet, that of each
route and of each route under each app override, is checked before the config is accepted. Expressions are compiled
by a library of their own.
-/

namespace SmallGateway.Config

/-- What an expression computes. -/
inductive ExprKind where
  | condition
  | derived
  | label
  deriving DecidableEq

/-- The expression library and the reader of the keys of an identity provider, as far as a config needs them. -/
structure Compilers (Expr : Type) where
  compile : String → ExprKind → Except String Expr
  parseJwks : String → Except String Unit

/-! ### Spend caps -/

/-- The spend cap of one attribution key: a default for every value, and the values that have a cap of their own. -/
structure KeyCap where
  default : Option Nat
  overrides : Named (Option Nat)
  window : Option Window
  alertFraction : Option ℚ

/-- The entries of the second map in place of those of the first. -/
def overlay {α : Type} (upper lower : Named α) : Named α :=
  lower.toList.foldl (fun merged entry => merged.insert entry.1 entry.2) upper

namespace KeyCap

def capFor (cap : KeyCap) (value : String) : Option Nat :=
  match cap.overrides[value]? with
  | some overridden => overridden
  | none => cap.default

/-- The terms of one value, none when the value is uncapped. -/
def termsFor (cap : KeyCap) (value : String) : Option CapTerms :=
  (cap.capFor value).map fun tokens => ⟨tokens, cap.window, cap.alertFraction.getD softAlertFraction⟩

/-- The cap of a lower scope folded into this one. -/
def composeChild (cap child : KeyCap) : KeyCap where
  default := child.default.or cap.default
  overrides := overlay cap.overrides child.overrides
  window := child.window.or cap.window
  alertFraction := child.alertFraction.or cap.alertFraction

end KeyCap

def SpendCapSpec.toKeyCap (spec : SpendCapSpec) : KeyCap :=
  ⟨spec.default, spec.overrides, spec.window, spec.alertAt.map fun percent => percent / 100⟩

/-! ### Policies and layers -/

inductive LabelValue (Expr : Type) where
  | static (value : String)
  | fromAttribution (key : String)
  | expr (expr : Expr)

structure EffectiveLabel (Expr : Type) where
  key : String
  value : LabelValue Expr

/-- A composed policy, which is all that a request consults. -/
structure EffectivePolicy (Expr : Type) where
  requiredKeys : List String
  pinned : Named String
  fromClaims : Named String
  derived : Named Expr
  labels : List (EffectiveLabel Expr)
  spendCaps : Named KeyCap
  models : Option (List String)
  headers : Named String
  defaultResponse : RejectionTemplate
  unknownRoute : RejectionTemplate
  modelNotAllowed : RejectionTemplate
  valueNotAllowed : Option RejectionTemplate
  capExceeded : Option RejectionTemplate

inductive LabelItem (Expr : Type) where
  | base
  | label (key : String) (value : LabelValue Expr)

/-- One scope, compiled. -/
structure Layer (Expr : Type) where
  name : String
  requiredKeys : List String
  headers : Named String
  pinned : Named String
  fromClaims : Named String
  derived : Named Expr
  labels : List (LabelItem Expr)
  spendCaps : Named KeyCap
  models : Option (List String)
  rejections : RejectionOverrides

/-- What a scope that sets no template overrides. -/
def RejectionOverrides.none : RejectionOverrides := ⟨.none, .none, .none, .none, .none⟩

namespace EffectivePolicy

variable {Expr : Type} (policy : EffectivePolicy Expr)

/-- The value of the key comes from the gateway: it is pinned, mapped from a claim or derived. -/
def established (key : String) : Bool :=
  policy.pinned.contains key || policy.fromClaims.contains key || policy.derived.contains key

/-- Every key the policy knows an origin for. -/
def keyUniverse : Std.TreeSet String :=
  Std.TreeSet.ofList (policy.requiredKeys ++ policy.pinned.keys ++ policy.fromClaims.keys ++ policy.derived.keys)

/-- An established key that is neither pinned nor mapped from a claim is derived. -/
theorem derived_of_established {key : String} (established : policy.established key = true)
    (unpinned : policy.pinned[key]? = none) (unclaimed : policy.fromClaims[key]? = none) :
    policy.derived.contains key = true := by
  have pinned : key ∉ policy.pinned := by simpa using unpinned
  have claimed : key ∉ policy.fromClaims := by simpa using unclaimed
  simpa [EffectivePolicy.established, pinned, claimed] using established

def capFor (key value : String) : Option Nat := policy.spendCaps[key]?.bind (·.capFor value)

def termsFor (key value : String) : Option CapTerms := policy.spendCaps[key]?.bind (·.termsFor value)

end EffectivePolicy

/-! ### Compiling a scope -/

section

variable {Expr : Type} (lib : Compilers Expr)

/-- The errors of the required keys, given the keys and the markers before them. -/
def checkRequired (name : String) : List String → Bool → List String → List String
  | _, _, [] => []
  | seen, marked, key :: rest =>
    if key = baseMarker then
      refuseIf marked (name ++ ": required_keys: more than one " ++ baseMarker ++ " marker") ++
        checkRequired name seen true rest
    else
      checkKey key (name ++ ": required_keys") ++
        refuseIf (seen.contains key) (name ++ ": required_keys: duplicate key " ++ quoted key) ++
        checkRequired name (key :: seen) marked rest

def checkPinned (name : String) (pinned : Named String) : List String :=
  pinned.toList.flatMap fun (key, value) =>
    checkKey key (name ++ ": pinned") ++
      refuseIf value.isEmpty (name ++ ": pinned " ++ quoted key ++ ": value must not be empty")

def checkClaims (name : String) (fromClaims : Named String) : List String :=
  fromClaims.toList.flatMap fun (key, claim) =>
    checkKey key (name ++ ": from_claims") ++
      refuseIf (Text.isBlank claim) (name ++ ": from_claims " ++ quoted key ++ ": claim name must not be empty")

/-- The derived keys whose expressions compile. -/
def compileDerived (derived : Named String) : Named Expr :=
  derived.toList.foldl
    (fun compiled (key, source) =>
      match lib.compile source .derived with
      | .ok expr => compiled.insert key expr
      | .error _ => compiled)
    ∅

def checkDerived (name : String) (derived : Named String) : List String :=
  derived.toList.flatMap fun (key, source) =>
    checkKey key (name ++ ": derived") ++
      refused (name ++ ": derived " ++ quoted key) (lib.compile source .derived)

/-- A key of one scope has one origin. -/
def checkOrigins (name : String) (attr : Attribution) : List String :=
  (attr.fromClaims.keys.flatMap fun key =>
    refuseIf (attr.pinned.contains key)
      (name ++ ": key " ++ quoted key ++ " is both pinned and claim-mapped; pick one origin")) ++
  attr.derived.keys.flatMap fun key =>
    refuseIf (attr.pinned.contains key)
        (name ++ ": key " ++ quoted key ++ " is both pinned and derived; pick one origin") ++
      refuseIf (attr.fromClaims.contains key)
        (name ++ ": key " ++ quoted key ++ " is both claim-mapped and derived; pick one origin")

/-- The value of a label, when it has one, and its errors. -/
def compileLabel (ctx : String) (spec : LabelSpec) : Option (LabelValue Expr) × List String :=
  match spec.value, spec.fromAttribution, spec.expression with
  | some value, none, none => (some (.static value), refused ctx (validateLabelValue value))
  | none, some key, none => (some (.fromAttribution key), checkKey key (ctx ++ ": from_attribution"))
  | none, none, some source =>
    match lib.compile source .label with
    | .ok expr => (some (.expr expr), [])
    | .error e => (none, [ctx ++ ": " ++ e])
  | _, _, _ =>
    (none, [ctx ++ ": exactly one of 'value', 'from_attribution', or 'expression' must be set"])

/-- The items of a label list with its errors, given the label keys and the markers before them. -/
def compileLabels (name : String) : List String → Bool → List LabelEntry → List (LabelItem Expr) × List String
  | _, _, [] => ([], [])
  | seen, marked, .base text :: rest =>
    if text = baseMarker then
      let (items, errors) := compileLabels name seen true rest
      (.base :: items, refuseIf marked (name ++ ": labels: more than one " ++ baseMarker ++ " marker") ++ errors)
    else
      let (items, errors) := compileLabels name seen marked rest
      (items, (name ++ ": labels: unexpected entry " ++ quoted text ++ " (did you mean " ++ quoted baseMarker ++ "?)")
        :: errors)
  | seen, marked, .spec spec :: rest =>
    let ctx := name ++ ": label " ++ quoted spec.key
    let (value, own) := compileLabel lib ctx spec
    let (items, errors) := compileLabels name (spec.key :: seen) marked rest
    ((value.map fun value => LabelItem.label spec.key value).toList ++ items,
      refused ctx (validateLabelKey spec.key) ++
        refuseIf (seen.contains spec.key) (ctx ++ ": duplicate label key in one scope") ++ own ++ errors)

def checkSpendCaps (name : String) (caps : Named SpendCapSpec) : List String :=
  caps.toList.flatMap fun (key, spec) =>
    checkKey key (name ++ ": spend_caps") ++
      (match spec.alertAt with
        | none => []
        | some percent =>
          refuseIf (!(1 ≤ percent && percent ≤ 100))
            (name ++ ": spend_caps " ++ quoted key ++ ": alert_at must be 1-100 (percent), got " ++ toString percent))

/-- The text without the stars at its end. -/
def trimStars (text : String) : String := String.ofList (text.toList.reverse.dropWhile (· == '*')).reverse

def checkModels (name : String) (models : Option (List String)) : List String :=
  match models with
  | none => []
  | some models =>
    refuseIf models.isEmpty (name ++ ": models must not be an empty list (omit for no gate)") ++
      models.flatMap fun model =>
        refuseIf (Text.isBlank model || (trimStars model).toList.contains '*')
          (name ++ ": models entry " ++ quoted model ++ " must be a name or a trailing-* family pattern")

/-- A scope compiled to a layer, and its errors. -/
def compileLayer (name : String) (scope : Scope) : Layer Expr × List String :=
  let attr := scope.attribution
  let (labels, labelErrors) := compileLabels lib name [] false scope.labels
  (⟨name, attr.requiredKeys, attr.headers, attr.pinned, attr.fromClaims, compileDerived lib attr.derived, labels,
      attr.spendCaps.map fun _ spec => spec.toKeyCap, attr.models, scope.rejections.getD .none⟩,
    checkRequired name [] false attr.requiredKeys ++ checkPinned name attr.pinned ++
      checkClaims name attr.fromClaims ++ checkDerived lib name attr.derived ++ checkOrigins name attr ++ labelErrors ++
      (match scope.rejections with
        | none => []
        | some overrides => validateRejectionOverrides overrides name) ++
      checkSpendCaps name attr.spendCaps ++ checkModels name attr.models)

end

end SmallGateway.Config
