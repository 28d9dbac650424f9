import SmallGateway.Composition

/-!
Attribution of a request (`gateway-core/src/attribution.rs`) and what the gateway makes of it towards a provider
(`gatewayd/src/proxy_support.rs`): the values the caller sends are read under the headers of the route's policy, each
key of a policy resolves to a tag from its one origin, the app that is resolved selects the policy that is enforced,
and its tags become session tags and role material.
-/

namespace SmallGateway

open Json (Value)

/-- The head of a request: header names in lower case, each with the bytes of its value. -/
structure RequestHead where
  method : String
  headers : List (String × List UInt8)

/-- The text of a header value that is visible ASCII. -/
def headerText (value : List UInt8) : Option String :=
  if value.all fun byte => (32 ≤ byte && byte < 127) || byte == 9 then
    some (String.ofList (value.map fun byte => Char.ofNat byte.toNat))
  else none

/-- Verified claims. -/
abbrev Claims := List (String × Value)

/-- What an expression is evaluated in. -/
structure EvalCtx where
  method : String
  path : String
  headers : Named String
  claims : Option Claims
  attribution : Named String

/-- The values that the caller sends, under the headers that the operator has named. -/
def callerAttrs (head : RequestHead) (names : Named String) : Named String :=
  names.toList.foldl
    (fun sent (key, header) =>
      match (head.headers.lookup header).bind headerText with
      | some value => sent.insert key value
      | none => sent)
    ∅

def evalCtx (head : RequestHead) (path : String) (claims : Option Claims) : EvalCtx where
  method := head.method
  path := path
  headers := head.headers.foldl
    (fun headers (name, value) =>
      match headerText value with
      | some text => headers.insertIfNew name.toLower text
      | none => headers)
    ∅
  claims := claims
  attribution := ∅

/-- The evaluation of expressions to text. -/
structure Evaluator (Expr : Type) where
  evalString : Expr → EvalCtx → Except String String

namespace Attribution

open Config (EffectivePolicy CompiledRoute Apps)

/-- The tags that resolved, in the order of their keys, and the required keys that did not. -/
structure Resolution where
  tags : List Tag
  missing : List String

namespace Resolution

def ok (resolution : Resolution) : Bool := resolution.missing.isEmpty

/-- The value of a key that resolved. -/
def value (resolution : Resolution) (key : String) : Option String :=
  (tagFor resolution.tags key).map (·.value)

end Resolution

/-- A claim that names a spender. -/
def claimString (json : JsonText) : Value → Option String
  | .string text => some text
  | .number number => some (json.toText (.number number))
  | .bool value => some (if value then "true" else "false")
  | _ => none

variable {Expr : Type} (json : JsonText) (eval : Evaluator Expr)

/-- The tag of a key. A key that the gateway establishes never falls back on what the caller sends. -/
def resolveKey (policy : EffectivePolicy Expr) (callerValue : String → Option String) (claims : Option Claims)
    (derivedValue : String → Option String) (key : String) : Option Tag :=
  match policy.pinned[key]? with
  | some value => some ⟨key, value, .assigned⟩
  | none =>
    match policy.fromClaims[key]? with
    | some claim => ((claims.bind (·.lookup claim)).bind (claimString json)).map (⟨key, ·, .proven⟩)
    | none =>
      if policy.derived.contains key then
        ((derivedValue key).filter fun value => !value.isEmpty).map (⟨key, ·, .derived⟩)
      else ((callerValue key).filter fun value => !value.isEmpty).map (⟨key, ·, .caller⟩)

def resolve (policy : EffectivePolicy Expr) (callerValue : String → Option String) (claims : Option Claims)
    (derivedValue : String → Option String) : Resolution :=
  let keys := policy.keyUniverse.toList
  let tagOf := resolveKey json policy callerValue claims derivedValue
  ⟨keys.filterMap tagOf, keys.filter fun key => policy.requiredKeys.contains key && (tagOf key).isNone⟩

/-- The value of a derived key; an expression that fails has none. -/
def derivedValue (policy : EffectivePolicy Expr) (ctx : EvalCtx) (key : String) : Option String :=
  policy.derived[key]?.bind fun expr => (eval.evalString expr ctx).toOption

def resolvePolicy (policy : EffectivePolicy Expr) (caller : Named String) (claims : Option Claims) (ctx : EvalCtx) :
    Resolution :=
  resolve json policy (fun key => caller[key]?) claims (derivedValue eval policy ctx)

/-- The override that a first resolution selects. -/
def selectedApp (route : CompiledRoute Expr) (apps : Option Apps) (first : Resolution) :
    Option (EffectivePolicy Expr) :=
  apps.bind fun apps => (first.value apps.key).bind fun value => route.apps[value]?

/-- The policy that a request is held to, and its resolution. -/
def resolveWithAppScope (route : CompiledRoute Expr) (apps : Option Apps) (caller : Named String)
    (claims : Option Claims) (ctx : EvalCtx) : EffectivePolicy Expr × Resolution :=
  let first := resolvePolicy json eval route.effective caller claims ctx
  match selectedApp route apps first with
  | none => (route.effective, first)
  | some policy => (policy, resolvePolicy json eval policy caller claims ctx)

/-- The attribution of a request on a route. -/
def attributed (route : CompiledRoute Expr) (apps : Option Apps) (head : RequestHead) (path : String)
    (claims : Option Claims) : EffectivePolicy Expr × Resolution :=
  resolveWithAppScope json eval route apps (callerAttrs head route.effective.headers) claims
    (evalCtx head path claims)

/-! ### What a key resolves to -/

section

variable {json : JsonText} {eval : Evaluator Expr} {policy : EffectivePolicy Expr}
  {callerValue callerValue' : String → Option String} {claims : Option Claims}
  {derivedValue derivedValue' : String → Option String} {key : String}

theorem resolveKey_key {tag : Tag} (resolved : resolveKey json policy callerValue claims derivedValue key = some tag) :
    tag.key = key := by
  unfold resolveKey at resolved
  split at resolved
  · obtain rfl := Option.some.inj resolved
    rfl
  · split at resolved
    · obtain ⟨_, -, rfl⟩ := Option.map_eq_some_iff.mp resolved
      rfl
    · split at resolved
      · obtain ⟨_, -, rfl⟩ := Option.map_eq_some_iff.mp resolved
        rfl
      · obtain ⟨_, -, rfl⟩ := Option.map_eq_some_iff.mp resolved
        rfl

/-- The first tag of a key is what the key resolves to. -/
theorem resolve_tagFor :
    tagFor (resolve json policy callerValue claims derivedValue).tags key =
      if key ∈ policy.keyUniverse then resolveKey json policy callerValue claims derivedValue key else none := by
  have listed : ∀ keys : List String,
      tagFor (keys.filterMap (resolveKey json policy callerValue claims derivedValue)) key =
        if key ∈ keys then resolveKey json policy callerValue claims derivedValue key else none := by
    intro keys
    induction keys with
    | nil => rfl
    | cons first rest ih =>
      cases resolved : resolveKey json policy callerValue claims derivedValue first with
      | none =>
        rw [List.filterMap_cons_none resolved, ih]
        by_cases same : key = first
        · subst same
          simp [resolved]
        · simp [same]
      | some tag =>
        have named := resolveKey_key resolved
        rw [List.filterMap_cons_some resolved, tagFor, List.find?_cons, ← tagFor]
        by_cases same : key = first
        · subst same
          simp [named, resolved]
        · simp [named, ih, same, beq_false_of_ne (Ne.symm same)]
  rw [resolve]
  simp only [listed, Std.TreeSet.mem_toList]

/-- A key that the gateway establishes has no value of the caller's. -/
theorem resolveKey_established (established : policy.established key = true) {tag : Tag}
    (resolved : resolveKey json policy callerValue claims derivedValue key = some tag) : tag.origin ≠ .caller := by
  unfold resolveKey at resolved
  split at resolved
  · obtain rfl := Option.some.inj resolved
    simp
  next pinned =>
    split at resolved
    · obtain ⟨_, -, rfl⟩ := Option.map_eq_some_iff.mp resolved
      simp
    next claimed =>
      have derived : policy.derived.contains key = true := policy.derived_of_established established pinned claimed
      rw [if_pos derived] at resolved
      obtain ⟨_, -, rfl⟩ := Option.map_eq_some_iff.mp resolved
      simp

/-- A key resolves to the same tag when it resolves to the same value. -/
theorem resolveKey_ext
    (same : (resolveKey json policy callerValue claims derivedValue key).map (·.value) =
      (resolveKey json policy callerValue' claims derivedValue' key).map (·.value)) :
    resolveKey json policy callerValue claims derivedValue key =
      resolveKey json policy callerValue' claims derivedValue' key := by
  unfold resolveKey at same ⊢
  split
  · rfl
  next pinned =>
    split
    · rfl
    next claimed =>
      simp only [pinned, claimed] at same
      split
      next derives =>
        simp only [derives, if_true, Option.map_map, Function.comp_def, Option.map_id'] at same
        rw [same]
      next underived =>
        simp only [underived, Bool.false_eq_true, if_false, Option.map_map, Function.comp_def, Option.map_id'] at same
        rw [same]

/-- What the gateway establishes does not depend on the caller. -/
theorem resolveKey_congr (established : policy.established key = true)
    (derived : derivedValue key = derivedValue' key) :
    resolveKey json policy callerValue claims derivedValue key =
      resolveKey json policy callerValue' claims derivedValue' key := by
  unfold resolveKey
  rw [derived]
  split
  · rfl
  next pinned =>
    split
    · rfl
    next claimed =>
      have derives : policy.derived.contains key = true := policy.derived_of_established established pinned claimed
      rw [if_pos derives, if_pos derives]

end

section

variable {json : JsonText} {eval : Evaluator Expr} {policy : EffectivePolicy Expr} {caller caller' : Named String}
  {claims : Option Claims} {ctx ctx' : EvalCtx} {key : String}

/-- An established key has no tag of the caller's. -/
theorem resolvePolicy_established (established : policy.established key = true) {tag : Tag}
    (found : tagFor (resolvePolicy json eval policy caller claims ctx).tags key = some tag) :
    tag.origin ≠ .caller := by
  rw [resolvePolicy, resolve_tagFor] at found
  split at found
  · exact resolveKey_established established found
  · cases found

/-- An established key has the same tag whatever the caller sends. -/
theorem resolvePolicy_congr (established : policy.established key = true)
    (derived : derivedValue eval policy ctx key = derivedValue eval policy ctx' key) :
    tagFor (resolvePolicy json eval policy caller claims ctx).tags key =
      tagFor (resolvePolicy json eval policy caller' claims ctx').tags key := by
  rw [resolvePolicy, resolvePolicy, resolve_tagFor, resolve_tagFor]
  split
  · exact resolveKey_congr established derived
  · rfl

/-- A key has the same tag when it has the same value. -/
theorem resolvePolicy_ext
    (same : (resolvePolicy json eval policy caller claims ctx).value key =
      (resolvePolicy json eval policy caller' claims ctx').value key) :
    tagFor (resolvePolicy json eval policy caller claims ctx).tags key =
      tagFor (resolvePolicy json eval policy caller' claims ctx').tags key := by
  rw [Resolution.value, Resolution.value, resolvePolicy, resolvePolicy, resolve_tagFor, resolve_tagFor] at same
  rw [resolvePolicy, resolvePolicy, resolve_tagFor, resolve_tagFor]
  split
  next inside =>
    rw [if_pos inside, if_pos inside] at same
    exact resolveKey_ext same
  next => rfl

end

/-- The request is held to a policy that the route serves, and its resolution is that of the policy. -/
theorem resolveWithAppScope_serves (route : CompiledRoute Expr) (apps : Option Apps) (caller : Named String)
    (claims : Option Claims) (ctx : EvalCtx) :
    route.Serves (resolveWithAppScope json eval route apps caller claims ctx).1 ∧
      (resolveWithAppScope json eval route apps caller claims ctx).2 =
        resolvePolicy json eval (resolveWithAppScope json eval route apps caller claims ctx).1 caller claims ctx := by
  simp only [resolveWithAppScope]
  cases selected : selectedApp route apps (resolvePolicy json eval route.effective caller claims ctx) with
  | none => exact ⟨.inl rfl, rfl⟩
  | some policy =>
    refine ⟨.inr ?_, rfl⟩
    obtain ⟨apps, -, chosen⟩ := Option.bind_eq_some_iff.mp selected
    obtain ⟨value, -, found⟩ := Option.bind_eq_some_iff.mp chosen
    exact ⟨value, found⟩

end Attribution

/-! ### Session tags and role material -/

open Config (StsConfig SessionTag)

/-- Why session tags cannot be had: a key, and the reason; or a tag that the validation of the config rules out. -/
inductive TagFailure where
  | rejected (key reason : String)
  | misspecified
  deriving DecidableEq

/-- The tag of an attribution key, or that it did not resolve. -/
def tagOf (tags : List Tag) (key : String) : Except (String × String) Tag :=
  match tagFor tags key with
  | none => .error (key, "attribution key " ++ Text.debugStr key ++ " did not resolve")
  | some tag => .ok tag

/-- The value of one session tag. A value of the caller is refused. -/
def sessionTagValue (tags : List Tag) (spec : SessionTag) : Except TagFailure (String × String) :=
  match spec.value, spec.fromAttribution with
  | some value, _ => .ok (spec.key, value)
  | none, some key =>
    match tagOf tags key with
    | .error (key, reason) => .error (.rejected key reason)
    | .ok tag =>
      if tag.origin = .caller then
        .error (.rejected key ("attribution key " ++ Text.debugStr key ++ " is caller-origin"))
      else
        match Config.validateSessionTagValue tag.value with
        | .error e => .error (.rejected key e)
        | .ok () => .ok (spec.key, tag.value)
  | none, none => .error .misspecified

def resolveSessionTags (sts : StsConfig) (tags : List Tag) : Except TagFailure (List (String × String)) :=
  sts.tags.mapM (sessionTagValue tags)

/-- The text without the dashes and underscores at its end. -/
def trimDashes (chars : List Char) : List Char :=
  (chars.reverse.dropWhile fun c => c == '-' || c == '_').reverse

def sanitizeSessionName (raw : String) : String :=
  let kept := trimDashes ((raw.toList.map fun c => if Config.sessionNameChar c then c else '-').take 64)
  if kept.length < 2 then "gatewayd" else String.ofList kept

/-- The gate of an allow-list. An error names the key, and the value that was refused when there is one. -/
def checkAllow (sts : StsConfig) (tags : List Tag) : Except (String × Option String × String) Unit :=
  match sts.allow with
  | none => .ok ()
  | some allow =>
    match tagOf tags allow.key with
    | .error (key, reason) => .error (key, none, reason)
    | .ok tag =>
      if allow.values.contains tag.value then .ok ()
      else
        .error (allow.key, some tag.value, "value " ++ Text.debugStr tag.value ++
          " is not in the operator's allow-list for " ++ Text.debugStr allow.key)

/-- One template of role material, where the key of the allow-list may be the caller's. -/
def renderRoleMaterial (spec : OperatorValueSpec) (what : String) (sts : StsConfig) (tags : List Tag) :
    Except (String × Option String × String) String :=
  (renderOperatorTemplate spec what tags (sts.allow.map (·.key))).mapError fun (key, reason) => (key, none, reason)

/-- The role a request assumes, and its session name. -/
def resolveRoleIdentity (sts : StsConfig) (tags : List Tag) :
    Except (String × Option String × String) (String × String) :=
  match checkAllow sts tags with
  | .error e => .error e
  | .ok () =>
    match renderRoleMaterial sts.roleArn "role_arn" sts tags with
    | .error e => .error e
    | .ok roleArn =>
      if !Config.isRoleArn roleArn then
        .error ("role_arn", none, "rendered role ARN " ++ Text.debugStr roleArn ++ " is not an IAM role ARN")
      else
        match renderRoleMaterial sts.sessionName "session_name" sts tags with
        | .error e => .error e
        | .ok name => .ok (roleArn, sanitizeSessionName name)

end SmallGateway
