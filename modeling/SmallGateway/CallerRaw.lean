import SmallGateway.Attribution

/-!
The caller never steers what the operator decides. In an accepted config every key that a session tag, a role or a
forced value names is established by the gateway under every policy a request can be held to, or gated by the
allow-list of its provider. So no session tag, role or forced value of a request takes a value that the caller
asserted, but one that the allow-list approves, and two requests of which the gateway establishes the same get the same
of each (`never_caller_raw`). What a derived key is, its expression decides.
-/

namespace SmallGateway

open Config (Compilers Finalized Route CompiledRoute EffectivePolicy StsConfig)
open Attribution (Resolution attributed derivedValue)

/-- The tag of the key, if it has one, is not the caller's. -/
def NotCallers (tags : List Tag) (key : String) : Prop := ∀ tag, tagFor tags key = some tag → tag.origin ≠ .caller

/-- The allow-list is about the key of the tag, and has its value. -/
def Approves (sts : StsConfig) (tag : Tag) : Prop := ∃ allow ∈ sts.allow, allow.key = tag.key ∧ tag.value ∈ allow.values

/-- The tag is the gateway's, or approved. -/
def Steers (sts : StsConfig) (tag : Tag) : Prop := tag.origin ≠ .caller ∨ Approves sts tag

/-- The values of an injection, of the headers and of the body. -/
def Injection.values (inject : Injection) : List OperatorValueSpec :=
  inject.headers.map (·.value) ++ inject.body.map (·.value)

/-- The branches that refuse a value of the caller's are not reached for any key, and what is resolved is what the
    operator wrote, with values of tags that are not the caller's or, in role material, that are approved. -/
structure NeverCallerRaw (provider : Config.Provider) (tags : List Tag) : Prop where
  tagKeys : ∀ sts ∈ provider.sts, ∀ spec ∈ sts.tags, ∀ key ∈ spec.fromAttribution, NotCallers tags key
  roleKeys : ∀ sts ∈ provider.sts, ∀ spec ∈ [sts.roleArn, sts.sessionName], ∀ key ∈ spec.keys,
    NotCallers tags key ∨ sts.allow.map (·.key) = some key
  forcedKeys : ∀ inject ∈ provider.inject, ∀ spec ∈ inject.values, ∀ key ∈ spec.keys, NotCallers tags key
  sessionTags : ∀ sts ∈ provider.sts, ∀ pairs, resolveSessionTags sts tags = .ok pairs → ∀ pair ∈ pairs,
    ∃ spec ∈ sts.tags, pair.1 = spec.key ∧ (spec.value = some pair.2 ∨
      ∃ tag, spec.fromAttribution = some tag.key ∧ tagFor tags tag.key = some tag ∧ tag.value = pair.2 ∧
        tag.origin ≠ .caller)
  role : ∀ sts ∈ provider.sts, ∀ roleArn name, resolveRoleIdentity sts tags = .ok (roleArn, name) →
    RenderedFrom sts.roleArn tags (Steers sts) roleArn ∧
      ∃ raw, name = sanitizeSessionName raw ∧ RenderedFrom sts.sessionName tags (Steers sts) raw
  forcedHeaders : ∀ inject ∈ provider.inject, ∀ resolved, resolveInjection inject tags = .ok resolved →
    ∀ pair ∈ resolved.headers, ∃ header ∈ inject.headers, pair.1 = header.name.toLower ∧
      RenderedFrom header.value tags (·.origin ≠ .caller) pair.2
  forcedBody : ∀ inject ∈ provider.inject, ∀ resolved, resolveInjection inject tags = .ok resolved →
    ∀ field ∈ resolved.body, ∃ forced ∈ inject.body, field.path = forced.path ∧
      RenderedFrom forced.value tags (·.origin ≠ .caller) field.value

/-- The session tags and the forced values are the same, and so is the role when the key of the allow-list has the same
    value. -/
structure SameOutputs (provider : Config.Provider) (first second : Resolution) : Prop where
  sessionTags : ∀ sts ∈ provider.sts, resolveSessionTags sts first.tags = resolveSessionTags sts second.tags
  role : ∀ sts ∈ provider.sts, (∀ allow ∈ sts.allow, first.value allow.key = second.value allow.key) →
    resolveRoleIdentity sts first.tags = resolveRoleIdentity sts second.tags
  forced : ∀ inject ∈ provider.inject, resolveInjection inject first.tags = resolveInjection inject second.tags

/-! ### What is resolved -/

section

variable {sts : StsConfig} {inject : Injection} {tags other : List Tag}

theorem tagOf_ok {key : String} {tag : Tag} (found : tagOf tags key = .ok tag) : tagFor tags key = some tag := by
  unfold tagOf at found
  cases looked : tagFor tags key with
  | none =>
    rw [looked] at found
    cases found
  | some first =>
    rw [looked] at found
    rw [Except.ok.inj found]

theorem tagOf_congr {key : String} (agree : tagFor tags key = tagFor other key) : tagOf tags key = tagOf other key := by
  rw [tagOf, tagOf, agree]

/-- A session tag is what the operator wrote, or the value of a tag that is not the caller's. -/
theorem sessionTagValue_ok {spec : Config.SessionTag} {pair : String × String}
    (resolved : sessionTagValue tags spec = .ok pair) :
    pair.1 = spec.key ∧ (spec.value = some pair.2 ∨
      ∃ tag, spec.fromAttribution = some tag.key ∧ tagFor tags tag.key = some tag ∧ tag.value = pair.2 ∧
        tag.origin ≠ .caller) := by
  unfold sessionTagValue at resolved
  cases written : spec.value with
  | some value =>
    simp only [written, Except.ok.injEq] at resolved
    subst resolved
    exact ⟨rfl, .inl rfl⟩
  | none =>
    cases source : spec.fromAttribution with
    | none =>
      simp only [written, source] at resolved
      cases resolved
    | some key =>
      cases looked : tagOf tags key with
      | error e =>
        simp only [written, source, looked] at resolved
        cases resolved
      | ok tag =>
        simp only [written, source, looked] at resolved
        have found := tagOf_ok looked
        obtain rfl := tagFor_key found
        by_cases callers : tag.origin = .caller
        · rw [if_pos callers] at resolved
          cases resolved
        · rw [if_neg callers] at resolved
          split at resolved
          · cases resolved
          · obtain rfl := Except.ok.inj resolved
            exact ⟨rfl, .inr ⟨tag, rfl, found, rfl, callers⟩⟩

theorem sessionTagValue_congr {spec : Config.SessionTag}
    (agree : ∀ key ∈ spec.fromAttribution, tagFor tags key = tagFor other key) :
    sessionTagValue tags spec = sessionTagValue other spec := by
  unfold sessionTagValue
  cases written : spec.value with
  | some value => rfl
  | none =>
    cases source : spec.fromAttribution with
    | none => rfl
    | some key => simp only [tagOf_congr (agree key source)]

theorem renderRoleMaterial_ok {spec : OperatorValueSpec} {what text : String}
    (rendered : renderRoleMaterial spec what sts tags = .ok text) :
    RenderedFrom spec tags (Tag.Usable (sts.allow.map (·.key))) text := by
  unfold renderRoleMaterial at rendered
  cases made : renderOperatorTemplate spec what tags (sts.allow.map (·.key)) with
  | error e =>
    rw [made] at rendered
    cases rendered
  | ok text' =>
    rw [made] at rendered
    obtain rfl := Except.ok.inj rendered
    exact renderOperatorTemplate_ok made

/-- A tag that role material takes its value from is approved once the gate has passed. -/
theorem checkAllow_steers (passed : checkAllow sts tags = .ok ()) {tag : Tag} (found : tagFor tags tag.key = some tag)
    (usable : tag.Usable (sts.allow.map (·.key))) : Steers sts tag := by
  rcases usable with gateways | gated
  · exact .inl gateways
  · obtain ⟨allow, allows, key⟩ := Option.map_eq_some_iff.mp gated
    refine .inr ⟨allow, allows, key, ?_⟩
    simp only [checkAllow, allows, tagOf, key, found] at passed
    split at passed
    case isTrue listed => simpa using listed
    case isFalse => cases passed

theorem resolveRoleIdentity_ok {roleArn name : String}
    (resolved : resolveRoleIdentity sts tags = .ok (roleArn, name)) :
    checkAllow sts tags = .ok () ∧ renderRoleMaterial sts.roleArn "role_arn" sts tags = .ok roleArn ∧
      ∃ raw, renderRoleMaterial sts.sessionName "session_name" sts tags = .ok raw ∧ name = sanitizeSessionName raw := by
  unfold resolveRoleIdentity at resolved
  cases passed : checkAllow sts tags with
  | error e =>
    simp only [passed] at resolved
    cases resolved
  | ok _ =>
    cases role : renderRoleMaterial sts.roleArn "role_arn" sts tags with
    | error e =>
      simp only [passed, role] at resolved
      cases resolved
    | ok arn =>
      simp only [passed, role] at resolved
      split at resolved
      · cases resolved
      · cases session : renderRoleMaterial sts.sessionName "session_name" sts tags with
        | error e =>
          simp only [session] at resolved
          cases resolved
        | ok raw =>
          simp only [session, Except.ok.injEq, Prod.mk.injEq] at resolved
          obtain ⟨rfl, rfl⟩ := resolved
          exact ⟨rfl, rfl, raw, rfl, rfl⟩

theorem resolveInjection_ok {resolved : ResolvedInjection} (made : resolveInjection inject tags = .ok resolved) :
    (∀ pair ∈ resolved.headers, ∃ header ∈ inject.headers, pair.1 = header.name.toLower ∧
        renderOperatorTemplate header.value header.name tags none = .ok pair.2) ∧
      ∀ field ∈ resolved.body, ∃ forced ∈ inject.body, field.path = forced.path ∧
        renderOperatorTemplate forced.value forced.path tags none = .ok field.value := by
  unfold resolveInjection at made
  cases headers : inject.headers.mapM (resolveHeader tags) with
  | error e =>
    simp only [headers] at made
    cases made
  | ok pairs =>
    cases body : inject.body.mapM (resolveBodyField tags) with
    | error e =>
      simp only [headers, body] at made
      cases made
    | ok fields =>
      simp only [headers, body, Except.ok.injEq] at made
      subst made
      constructor
      · intro pair listed
        obtain ⟨header, inside, one⟩ := Fallible.exists_of_mapM_ok headers pair listed
        unfold resolveHeader at one
        cases rendered : renderOperatorTemplate header.value header.name tags none with
        | error e =>
          rw [rendered] at one
          cases one
        | ok value =>
          rw [rendered] at one
          obtain rfl := Except.ok.inj one
          exact ⟨header, inside, rfl, rendered⟩
      · intro field listed
        obtain ⟨forced, inside, one⟩ := Fallible.exists_of_mapM_ok body field listed
        unfold resolveBodyField at one
        cases rendered : renderOperatorTemplate forced.value forced.path tags none with
        | error e =>
          rw [rendered] at one
          cases one
        | ok value =>
          rw [rendered] at one
          obtain rfl := Except.ok.inj one
          exact ⟨forced, inside, rfl, rendered⟩

theorem resolveInjection_congr
    (agree : ∀ spec ∈ inject.values, ∀ key ∈ spec.keys, tagFor tags key = tagFor other key) :
    resolveInjection inject tags = resolveInjection inject other := by
  have headers : inject.headers.mapM (resolveHeader tags) = inject.headers.mapM (resolveHeader other) := by
    refine Fallible.mapM_congr fun header listed => ?_
    rw [resolveHeader, resolveHeader,
      renderOperatorTemplate_congr (agree header.value (List.mem_append_left _ (List.mem_map_of_mem listed)))]
  have body : inject.body.mapM (resolveBodyField tags) = inject.body.mapM (resolveBodyField other) := by
    refine Fallible.mapM_congr fun field listed => ?_
    rw [resolveBodyField, resolveBodyField,
      renderOperatorTemplate_congr (agree field.value (List.mem_append_right _ (List.mem_map_of_mem listed)))]
  rw [resolveInjection, resolveInjection, headers, body]

theorem resolveRoleIdentity_congr (allowed : ∀ allow ∈ sts.allow, tagFor tags allow.key = tagFor other allow.key)
    (agree : ∀ spec ∈ [sts.roleArn, sts.sessionName], ∀ key ∈ spec.keys, tagFor tags key = tagFor other key) :
    resolveRoleIdentity sts tags = resolveRoleIdentity sts other := by
  have gate : checkAllow sts tags = checkAllow sts other := by
    unfold checkAllow
    cases known : sts.allow with
    | none => rfl
    | some allow => simp only [tagOf_congr (allowed allow known)]
  have role : ∀ what, renderRoleMaterial sts.roleArn what sts tags = renderRoleMaterial sts.roleArn what sts other := by
    intro what
    rw [renderRoleMaterial, renderRoleMaterial, renderOperatorTemplate_congr (agree sts.roleArn (by simp))]
  have session : ∀ what,
      renderRoleMaterial sts.sessionName what sts tags = renderRoleMaterial sts.sessionName what sts other := by
    intro what
    rw [renderRoleMaterial, renderRoleMaterial, renderOperatorTemplate_congr (agree sts.sessionName (by simp))]
  rw [resolveRoleIdentity, resolveRoleIdentity, gate, role, session]

end

/-! ### Under a checked policy -/

section

variable {Expr : Type} {policy : EffectivePolicy Expr} {provider : Config.Provider} {ctx : String}

/-- The keys that the values of a checked provider name are established, or gated by its allow-list. -/
structure KeysEstablished (policy : EffectivePolicy Expr) (provider : Config.Provider) : Prop where
  tags : ∀ sts ∈ provider.sts, ∀ spec ∈ sts.tags, ∀ key ∈ spec.fromAttribution, policy.established key = true
  role : ∀ sts ∈ provider.sts, ∀ spec ∈ [sts.roleArn, sts.sessionName], ∀ key ∈ spec.keys,
    policy.established key = true ∨ sts.allow.map (·.key) = some key
  forced : ∀ inject ∈ provider.inject, ∀ spec ∈ inject.values, ∀ key ∈ spec.keys, policy.established key = true

theorem allowGates_iff {sts : StsConfig} {key : String} :
    sts.allowGates key = true ↔ sts.allow.map (·.key) = some key := by
  cases known : sts.allow <;> simp [StsConfig.allowGates, known]

theorem keysEstablished_of_checked (none : Config.validateEffectiveForProvider ctx policy provider = []) :
    KeysEstablished policy provider := by
  simp only [Config.validateEffectiveForProvider, List.append_eq_nil_iff] at none
  obtain ⟨⟨injection, -⟩, credentials⟩ := none
  refine ⟨fun sts known => ?_, fun sts known => ?_, fun inject known => ?_⟩
  · rw [Option.mem_def] at known
    rw [known] at credentials
    exact (Config.checkSts_nil credentials).1
  · rw [Option.mem_def] at known
    rw [known] at credentials
    obtain ⟨-, role, session⟩ := Config.checkSts_nil credentials
    intro spec listed key named
    rw [← allowGates_iff]
    rcases List.mem_pair.mp listed with rfl | rfl
    · exact role key named
    · exact session key named
  · rw [Option.mem_def] at known
    rw [known] at injection
    obtain ⟨headers, body⟩ := Config.checkInjection_nil injection
    intro spec listed key named
    rcases List.mem_append.mp listed with ofHeader | ofBody
    · obtain ⟨header, inside, rfl⟩ := List.mem_map.mp ofHeader
      exact headers header inside key named
    · obtain ⟨field, inside, rfl⟩ := List.mem_map.mp ofBody
      exact body field inside key named

theorem neverCallerRaw_of_established {tags : List Tag} (keys : KeysEstablished policy provider)
    (safe : ∀ key, policy.established key = true → NotCallers tags key) : NeverCallerRaw provider tags where
  tagKeys := fun sts known spec listed key source => safe key (keys.tags sts known spec listed key source)
  roleKeys := fun sts known spec listed key named => (keys.role sts known spec listed key named).imp_left (safe key)
  forcedKeys := fun inject known spec listed key named => safe key (keys.forced inject known spec listed key named)
  sessionTags := by
    intro sts known pairs resolved pair listed
    obtain ⟨spec, inside, one⟩ := Fallible.exists_of_mapM_ok resolved pair listed
    exact ⟨spec, inside, sessionTagValue_ok one⟩
  role := by
    intro sts known roleArn name resolved
    obtain ⟨passed, role, raw, session, rfl⟩ := resolveRoleIdentity_ok resolved
    have steers : ∀ tag, tagFor tags tag.key = some tag → tag.Usable (sts.allow.map (·.key)) → Steers sts tag :=
      fun tag => checkAllow_steers passed
    exact ⟨(renderRoleMaterial_ok role).mono fun tag found _ => steers tag found, raw, rfl,
      (renderRoleMaterial_ok session).mono fun tag found _ => steers tag found⟩
  forcedHeaders := by
    intro inject known resolved made pair listed
    obtain ⟨header, inside, name, rendered⟩ := (resolveInjection_ok made).1 pair listed
    refine ⟨header, inside, name, (renderOperatorTemplate_ok rendered).mono fun tag _ _ usable => ?_⟩
    exact usable.resolve_right (by simp)
  forcedBody := by
    intro inject known resolved made field listed
    obtain ⟨forced, inside, path, rendered⟩ := (resolveInjection_ok made).2 field listed
    refine ⟨forced, inside, path, (renderOperatorTemplate_ok rendered).mono fun tag _ _ usable => ?_⟩
    exact usable.resolve_right (by simp)

theorem sameOutputs_of_established {first second : Resolution} (keys : KeysEstablished policy provider)
    (agree : ∀ key, policy.established key = true → tagFor first.tags key = tagFor second.tags key)
    (valued : ∀ key, first.value key = second.value key → tagFor first.tags key = tagFor second.tags key) :
    SameOutputs provider first second where
  sessionTags := by
    intro sts known
    refine Fallible.mapM_congr fun spec listed => sessionTagValue_congr fun key source => ?_
    exact agree key (keys.tags sts known spec listed key source)
  role := by
    intro sts known sameValue
    refine resolveRoleIdentity_congr (fun allow gates => valued _ (sameValue allow gates)) ?_
    intro spec listed key named
    rcases keys.role sts known spec listed key named with established | gated
    · exact agree key established
    · obtain ⟨allow, gates, rfl⟩ := Option.map_eq_some_iff.mp gated
      exact valued _ (sameValue allow gates)
  forced := by
    intro inject known
    exact resolveInjection_congr fun spec listed key named =>
      agree key (keys.forced inject known spec listed key named)

end

/-- Under an accepted config the branches that refuse a value of the caller's are unreachable for every request, no
    session tag, role or forced value takes a value of the caller's but one that an allow-list approves, and each is
    the same for two requests that are held to the same policy, with the same claims and the same derived values. -/
theorem never_caller_raw {Expr : Type} (lib : Compilers Expr) (json : JsonText) (eval : Evaluator Expr) (cfg : Config)
    (finalized : Finalized Expr) (accepted : Config.finalize lib cfg = .ok finalized) (route : Route)
    (compiled : CompiledRoute Expr) (listed : (route, compiled) ∈ finalized.routes) (provider : Config.Provider)
    (known : cfg.providers[route.provider]? = some provider) (head : RequestHead) (path : String)
    (claims : Option Claims) :
    let held := attributed json eval compiled cfg.apps head path claims
    NeverCallerRaw provider held.2.tags ∧
      ∀ (other : RequestHead) (otherPath : String),
        let second := attributed json eval compiled cfg.apps other otherPath claims
        second.1 = held.1 →
          (∀ key, derivedValue eval held.1 (evalCtx other otherPath claims) key =
            derivedValue eval held.1 (evalCtx head path claims) key) →
          SameOutputs provider held.2 second.2 := by
  intro held
  obtain ⟨serves, resolution⟩ := Attribution.resolveWithAppScope_serves json eval compiled cfg.apps
    (callerAttrs head compiled.effective.headers) claims (evalCtx head path claims)
  obtain ⟨ctx, checked⟩ := Config.accepted_for_provider accepted listed serves known
  have keys := keysEstablished_of_checked checked
  constructor
  · refine neverCallerRaw_of_established keys fun key established tag found => ?_
    rw [show held.2 = _ from resolution] at found
    exact Attribution.resolvePolicy_established established found
  · intro other otherPath second samePolicy sameDerived
    obtain ⟨-, resolution'⟩ := Attribution.resolveWithAppScope_serves json eval compiled cfg.apps
      (callerAttrs other compiled.effective.headers) claims (evalCtx other otherPath claims)
    have secondTags : second.2 = Attribution.resolvePolicy json eval held.1
        (callerAttrs other compiled.effective.headers) claims (evalCtx other otherPath claims) := by
      rw [← samePolicy]
      exact resolution'
    have firstTags : held.2 = Attribution.resolvePolicy json eval held.1
        (callerAttrs head compiled.effective.headers) claims (evalCtx head path claims) := resolution
    rw [firstTags, secondTags]
    refine sameOutputs_of_established keys (fun key established => ?_) fun key sameValue => ?_
    · exact Attribution.resolvePolicy_congr established (sameDerived key).symm
    · exact Attribution.resolvePolicy_ext sameValue

/-- Role material of the caller's team, gated to one team, and a tag and a header of the pinned environment. -/
def gatedSts : StsConfig where
  endpoint := ⟨"sts", 80⟩
  roleArn := .bare "arn:aws:iam::1:role/\x7b\x7bteam\x7d\x7d"
  sessionName := .bare "gw"
  durationSecs := 900
  tags := [⟨"env", none, some "env"⟩]
  allow := some ⟨"team", ["ml"]⟩
  base := none

def gatedProvider : Config.Provider where
  kind := .bedrock
  upstream := ⟨"bedrock", 80⟩
  inject := some ⟨[⟨"X-Env", .spec none (some "env")⟩], []⟩
  auth := none
  locations := none
  sts := some gatedSts

def fleetScope : Config.Scope where
  attribution :=
    ⟨["team"], (∅ : Named String).insert "team" "x-team", (∅ : Named String).insert "env" "prod", ∅, ∅, ∅, none⟩
  labels := []
  rejections := none

def gatedRoute : Route := ⟨"/", "b", none, none, ⟨⟨[], ∅, ∅, ∅, ∅, ∅, none⟩, [], none⟩⟩

def gatedConfig : Config where
  providers := (∅ : Named Config.Provider).insert "b" gatedProvider
  fleet := some fleetScope
  projects := ∅
  routes := [gatedRoute]
  apps := none
  rejections := ⟨⟨400, "text", "", none⟩, ⟨404, "text", "", none⟩, none, none, none⟩
  jwt := none
  otlp := none
  webhook := none
  wasm := ⟨[], false⟩

/-- A library that compiles nothing. -/
def noExpressions : Compilers Empty := ⟨fun _ _ => .error "empty CEL expression", fun _ => .error "expected value"⟩

def noValues : Evaluator Empty := ⟨fun expr _ => nomatch expr⟩

/-- A request of the team that is approved. -/
def teamHead : RequestHead := ⟨"POST", [("x-team", [109, 108])]⟩

/-- A JSON library that is not asked. -/
def noTexts : JsonText := ⟨fun _ => .error "", fun _ => .error "", fun _ => "null", fun _ => []⟩

/-- The approved team picks its role and nothing else. -/
theorem approved_team_picks_its_role :
    let held := attributed noTexts noValues (Config.compileRoute noExpressions gatedConfig gatedRoute) none teamHead
      "/" none
    resolveRoleIdentity gatedSts held.2.tags = .ok ("arn:aws:iam::1:role/ml", "gw") ∧
      NeverCallerRaw gatedProvider held.2.tags := by
  have accepted : Config.finalize noExpressions gatedConfig =
      .ok ⟨gatedConfig, [(gatedRoute, Config.compileRoute noExpressions gatedConfig gatedRoute)]⟩ :=
    if_pos (by decide +kernel)
  have known : gatedConfig.providers[gatedRoute.provider]? = some gatedProvider := by
    simp [gatedConfig, gatedRoute]
  exact ⟨by decide +kernel, (never_caller_raw noExpressions noTexts noValues gatedConfig _ accepted gatedRoute _
    List.mem_cons_self gatedProvider known teamHead "/" none).1⟩

/-! ### Misspecified session tags -/

theorem validateTags_nil {ctx : String} {seen : List String} {specs : List Config.SessionTag}
    (none : Config.validateTags ctx seen specs = []) :
    ∀ spec ∈ specs, ∃ specCtx, Config.refused specCtx (Config.validateSessionTagKey spec.key) = [] ∧
      Config.validateTagSource spec specCtx = [] := by
  induction specs generalizing seen with
  | nil => simp
  | cons first rest ih =>
    simp only [Config.validateTags, List.append_eq_nil_iff] at none
    obtain ⟨⟨⟨key, -⟩, source⟩, others⟩ := none
    intro spec listed
    rcases List.mem_cons.mp listed with rfl | later
    · exact ⟨_, key, source⟩
    · exact ih others spec later

/-- An accepted config has no session tag that is set to nothing, so the resolution of session tags never meets one. -/
theorem session_tags_specified {Expr : Type} {lib : Compilers Expr} {cfg : Config} {finalized : Finalized Expr}
    (accepted : Config.finalize lib cfg = .ok finalized) {name : String} {provider : Config.Provider}
    (known : cfg.providers[name]? = some provider) {sts : StsConfig} (exchanges : provider.sts = some sts)
    (tags : List Tag) : resolveSessionTags sts tags ≠ .error .misspecified := by
  obtain ⟨clean, -⟩ := Config.finalize_ok accepted
  have own := Config.validateSts_nil clean known exchanges
  have specified : ∀ spec ∈ sts.tags, spec.value.isSome = true ∨ spec.fromAttribution.isSome = true := by
    simp only [Config.validateSts, List.append_eq_nil_iff] at own
    intro spec listed
    obtain ⟨ctx, -, source⟩ := validateTags_nil own.2 spec listed
    cases written : spec.value with
    | some value => exact .inl rfl
    | none =>
      cases key : spec.fromAttribution with
      | some key => exact .inr rfl
      | none => simp [Config.validateTagSource, written, key] at source
  intro failed
  obtain ⟨spec, listed, one⟩ := Fallible.exists_of_mapM_error failed
  unfold sessionTagValue at one
  rcases specified spec listed with written | sourced
  · obtain ⟨value, written⟩ := Option.isSome_iff_exists.mp written
    simp [written] at one
  · obtain ⟨key, sourced⟩ := Option.isSome_iff_exists.mp sourced
    cases written : spec.value with
    | some value => simp [written] at one
    | none =>
      simp only [written, sourced] at one
      grind

end SmallGateway
