import SmallGateway.CallerRaw
import SmallGateway.Lib.Fallible
import SmallGateway.Lib.Maps

/-!
One key, one origin. A scope down a chain may set a key again, but not with another origin (`compose` in
`gateway-core/src/scope.rs`). So under every policy that a request of an accepted config can be held to, no key is at
once pinned, mapped from a claim and derived, or any two of these (`accepted_one_origin`).
-/

namespace SmallGateway.Config

variable {Expr : Type}

/-- The keys of a policy that have the origin. -/
def EffectivePolicy.originKeys (policy : EffectivePolicy Expr) : OriginKind → List String
  | .pinned => policy.pinned.keys
  | .claim => policy.fromClaims.keys
  | .derived => policy.derived.keys

/-- No key of a policy has two origins, and a key that the gateway establishes has one. -/
structure OneOrigin (policy : EffectivePolicy Expr) : Prop where
  pinned_claims : List.Disjoint policy.pinned.keys policy.fromClaims.keys
  pinned_derived : List.Disjoint policy.pinned.keys policy.derived.keys
  claims_derived : List.Disjoint policy.fromClaims.keys policy.derived.keys
  established : ∀ key, policy.established key = true → ∃! kind, key ∈ policy.originKeys kind

/-! ### Merged maps -/

theorem getElem?_overlay {α : Type} (upper lower : Named α) (key : String) :
    (overlay upper lower)[key]? = lower[key]?.or upper[key]? :=
  Maps.getElem?_foldl_insert_toList upper lower key

theorem mem_overlay {α : Type} (upper lower : Named α) (key : String) :
    key ∈ overlay upper lower ↔ key ∈ lower ∨ key ∈ upper := by
  simp only [Std.TreeMap.mem_iff_isSome_getElem?, getElem?_overlay, Option.isSome_or, Bool.or_eq_true]

/-- What is merged down a chain comes from its scopes. -/
theorem mem_mergeDown {α : Type} (field : Layer Expr → Named α) (chain : List (Layer Expr)) (key : String) :
    key ∈ mergeDown field chain ↔ ∃ layer ∈ chain, key ∈ field layer := by
  have folded : ∀ merged : Named α,
      key ∈ chain.foldl (fun merged layer => overlay merged (field layer)) merged ↔
        key ∈ merged ∨ ∃ layer ∈ chain, key ∈ field layer := by
    induction chain with
    | nil => simp
    | cons first rest ih =>
      intro merged
      rw [List.foldl_cons, ih, mem_overlay, List.exists_mem_cons_iff]
      tauto
  rw [mergeDown, folded]
  simp

theorem mem_sets {layer : Layer Expr} {kind : OriginKind} {key : String} :
    (kind, key) ∈ layer.sets ↔
      match kind with
      | .pinned => key ∈ layer.pinned
      | .claim => key ∈ layer.fromClaims
      | .derived => key ∈ layer.derived := by
  cases kind <;> simp [Layer.sets, Std.TreeMap.mem_keys]

/-- A composed key has an origin when a scope of the chain sets it so. -/
theorem mem_originKeys {base : Rejections} {chain : List (Layer Expr)} {ctx : String} {kind : OriginKind}
    {key : String} :
    key ∈ (compose base chain ctx).1.originKeys kind ↔ ∃ layer ∈ chain, (kind, key) ∈ layer.sets := by
  simp only [mem_sets]
  cases kind with
  | pinned => exact Std.TreeMap.mem_keys.trans (mem_mergeDown Layer.pinned chain key)
  | claim => exact Std.TreeMap.mem_keys.trans (mem_mergeDown Layer.fromClaims chain key)
  | derived => exact Std.TreeMap.mem_keys.trans (mem_mergeDown Layer.derived chain key)

/-! ### Origins down a chain -/

/-- The key has been set with the origin, and no other. -/
def Recorded (origins : Origins) (entry : OriginKind × String) : Prop :=
  origins[entry.2]?.map (·.1) = some entry.1

/-- A scope that sets a key without contradiction records its origin, and contradicts nothing recorded. -/
theorem setOrigin_nil {ctx scope : String} {origins : Origins} {kind : OriginKind} {key : String}
    (clean : (setOrigin ctx scope origins kind key).2 = []) :
    Recorded (setOrigin ctx scope origins kind key).1 (kind, key) ∧
      ∀ entry, Recorded origins entry → Recorded (setOrigin ctx scope origins kind key).1 entry := by
  have agrees : ∀ previous, origins[key]? = some previous → previous.1 = kind := by
    intro previous known
    by_contra differs
    simp [setOrigin, known, differs] at clean
  have inserted : (setOrigin ctx scope origins kind key).1 = origins.insert key (kind, scope) := by
    unfold setOrigin
    cases known : origins[key]? with
    | none => rfl
    | some previous => simp [agrees previous known]
  rw [inserted]
  constructor
  · simp [Recorded]
  · intro entry recorded
    obtain ⟨previous, known, same⟩ := Option.map_eq_some_iff.mp recorded
    by_cases again : key = entry.2
    · subst again
      rw [Recorded, Std.TreeMap.getElem?_insert_self, Option.map_some, ← agrees previous known, same]
    · simpa [Recorded, Std.TreeMap.getElem?_insert, again] using recorded

theorem setOrigins_nil {ctx : String} {origins : Origins} {layer : Layer Expr}
    (clean : (setOrigins ctx origins layer).2 = []) :
    (∀ entry ∈ layer.sets, Recorded (setOrigins ctx origins layer).1 entry) ∧
      ∀ entry, Recorded origins entry → Recorded (setOrigins ctx origins layer).1 entry := by
  have folded := Fallible.recorded_of_foldl
    (fun origins (entry : OriginKind × String) => setOrigin ctx layer.name origins entry.1 entry.2)
    (fun entry => [entry]) Recorded (fun origins entry own => by simpa using setOrigin_nil own) layer.sets (origins, [])
    clean
  exact ⟨fun entry listed => folded.2.1 entry listed entry List.mem_cons_self, folded.2.2⟩

/-- Down a chain without contradictions, the scopes that set a key agree on its origin. -/
theorem originErrors_nil {ctx : String} {chain : List (Layer Expr)} (clean : originErrors ctx chain = [])
    {first second : Layer Expr} (inFirst : first ∈ chain) (inSecond : second ∈ chain) {kind other : OriginKind}
    {key : String} (sets : (kind, key) ∈ first.sets) (setsToo : (other, key) ∈ second.sets) : kind = other := by
  obtain ⟨-, recorded, -⟩ := Fallible.recorded_of_foldl (setOrigins ctx) Layer.sets Recorded
    (fun _ _ own => setOrigins_nil own) chain (∅, []) clean
  have one := recorded first inFirst (kind, key) sets
  have same := recorded second inSecond (other, key) setsToo
  exact Option.some.inj (one.symm.trans same)

/-- A chain that composes without errors gives each key one origin. -/
theorem compose_one_origin {base : Rejections} {chain : List (Layer Expr)} {ctx : String}
    (clean : (compose base chain ctx).2 = []) : OneOrigin (compose base chain ctx).1 := by
  have unique : ∀ kind other key, key ∈ (compose base chain ctx).1.originKeys kind →
      key ∈ (compose base chain ctx).1.originKeys other → kind = other := by
    intro kind other key has hasToo
    obtain ⟨first, inFirst, sets⟩ := mem_originKeys.mp has
    obtain ⟨second, inSecond, setsToo⟩ := mem_originKeys.mp hasToo
    exact originErrors_nil (List.append_eq_nil_iff.mp clean).1 inFirst inSecond sets setsToo
  have disjoint : ∀ kind other, kind ≠ other →
      List.Disjoint ((compose base chain ctx).1.originKeys kind) ((compose base chain ctx).1.originKeys other) :=
    fun kind other differ key has hasToo => differ (unique kind other key has hasToo)
  refine ⟨disjoint .pinned .claim (by decide), disjoint .pinned .derived (by decide),
    disjoint .claim .derived (by decide), fun key established => ?_⟩
  have homed : ∃ kind, key ∈ (compose base chain ctx).1.originKeys kind := by
    simp only [EffectivePolicy.established, Bool.or_eq_true, Std.TreeMap.contains_iff_mem] at established
    rcases established with (pinned | claimed) | derived
    · exact ⟨.pinned, Std.TreeMap.mem_keys.mpr pinned⟩
    · exact ⟨.claim, Std.TreeMap.mem_keys.mpr claimed⟩
    · exact ⟨.derived, Std.TreeMap.mem_keys.mpr derived⟩
  obtain ⟨kind, has⟩ := homed
  exact ⟨kind, has, fun other hasToo => unique other kind key hasToo has⟩

/-! ### Acceptance -/

section

variable {lib : Compilers Expr} {cfg : Config} {finalized : Finalized Expr}

/-- The chain of a policy that a request on the route can be held to: that of the route, or with an app below it. -/
def ServedChain (lib : Compilers Expr) (cfg : Config) (route : Route) (chain : List (Layer Expr)) : Prop :=
  chain = routeChain lib cfg route ∨
    ∃ (value : String) (layer : Layer Expr), (appLayers lib cfg)[value]? = some layer ∧
      chain = routeChain lib cfg route ++ [layer]

/-- Every policy of an accepted config is composed, without errors, of its chain. -/
theorem accepted_composed (accepted : finalize lib cfg = .ok finalized) {route : Route}
    {compiled : CompiledRoute Expr} (listed : (route, compiled) ∈ finalized.routes) {policy : EffectivePolicy Expr}
    (serves : compiled.Serves policy) :
    ∃ chain ctx, ServedChain lib cfg route chain ∧ policy = (compose cfg.rejections chain ctx).1 ∧
      (compose cfg.rejections chain ctx).2 = [] := by
  obtain ⟨compiles, policies⟩ := accepted_route accepted listed
  subst compiles
  simp only [checkPolicies, List.append_eq_nil_iff, List.flatMap_eq_nil_iff] at policies
  obtain ⟨⟨⟨own, apps⟩, -⟩, -⟩ := policies
  rcases serves with rfl | ⟨value, found⟩
  · exact ⟨routeChain lib cfg route, route.label, .inl rfl, rfl, own⟩
  · rw [compileRoute, Std.TreeMap.getElem?_map] at found
    obtain ⟨layer, known, rfl⟩ := Option.map_eq_some_iff.mp found
    exact ⟨routeChain lib cfg route ++ [layer], appContext route value, .inr ⟨value, layer, known, rfl⟩, rfl,
      apps (value, layer) (Std.TreeMap.mem_toList_iff_getElem?_eq_some.mpr known)⟩

end

/-- Under every policy that an accepted config can hold a request to, the pinned keys, the keys mapped from claims and
    the derived keys are pairwise disjoint, so each key that the gateway establishes has one origin. -/
theorem accepted_one_origin {Expr : Type} (lib : Compilers Expr) (cfg : Config) (finalized : Finalized Expr)
    (accepted : finalize lib cfg = .ok finalized) (route : Route) (compiled : CompiledRoute Expr)
    (listed : (route, compiled) ∈ finalized.routes) (policy : EffectivePolicy Expr)
    (serves : compiled.Serves policy) : OneOrigin policy := by
  obtain ⟨chain, ctx, -, rfl, clean⟩ := accepted_composed accepted listed serves
  exact compose_one_origin clean

def claimedRoute : Route :=
  ⟨"/", "b", none, none, ⟨⟨[], ∅, ∅, (∅ : Named String).insert "team" "groups", ∅, ∅, none⟩, [], none⟩⟩

/-- The environment is pinned for the fleet, the team is a claim, and the app of one team pins a tier. -/
def claimedConfig : Config where
  providers := (∅ : Named Provider).insert "b" ⟨.bedrock, ⟨"bedrock", 80⟩, none, none, none, none⟩
  fleet := some ⟨⟨[], ∅, (∅ : Named String).insert "env" "prod", ∅, ∅, ∅, none⟩, [], none⟩
  projects := ∅
  routes := [claimedRoute]
  apps := some ⟨"team", (∅ : Named Scope).insert "ml"
    ⟨⟨[], ∅, (∅ : Named String).insert "tier" "gold", ∅, ∅, ∅, none⟩, [], none⟩⟩
  rejections := ⟨⟨400, "text", "", none⟩, ⟨404, "text", "", none⟩, none, none, none⟩
  jwt := some ⟨some "secret", none, "authorization"⟩
  otlp := none
  webhook := none
  wasm := ⟨[], false⟩

theorem claimed_one_origin :
    ∃ policy, (compileRoute noExpressions claimedConfig claimedRoute).apps["ml"]? = some policy ∧
      policy.pinned.keys = ["env", "tier"] ∧ policy.fromClaims.keys = ["team"] ∧ OneOrigin policy := by
  have accepted : finalize noExpressions claimedConfig =
      .ok ⟨claimedConfig, [(claimedRoute, compileRoute noExpressions claimedConfig claimedRoute)]⟩ :=
    if_pos (by decide +kernel)
  have keys : ((compileRoute noExpressions claimedConfig claimedRoute).apps["ml"]?).map
      (fun policy => (policy.pinned.keys, policy.fromClaims.keys)) = some (["env", "tier"], ["team"]) := by
    decide
  obtain ⟨policy, found, same⟩ := Option.map_eq_some_iff.mp keys
  obtain ⟨pinned, claims⟩ := Prod.mk.inj same
  exact ⟨policy, found, pinned, claims, accepted_one_origin noExpressions claimedConfig _ accepted claimedRoute _
    List.mem_cons_self policy (.inr ⟨"ml", found⟩)⟩

end SmallGateway.Config
