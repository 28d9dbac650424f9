import SmallGateway.Origins
import SmallGateway.Attribution

/-!
What a resolution without a missing key gives (`resolve` in `gateway-core/src/attribution.rs`): a tag for each required
key, with a value and with the origin that the policy declares for the key. A value that is derived, or that the caller
sends, is dropped when it is empty. A pinned value and the text of a claim are taken as they are, so the tags have
values exactly when none of these is empty (`resolve_complete_iff`). An accepted config pins no empty value, but nothing
keeps an empty claim out.
-/

namespace SmallGateway.Attribution

open Config (EffectivePolicy)

variable {Expr : Type}

/-- The origin that a policy declares for a key. -/
def declaredOrigin (policy : EffectivePolicy Expr) (key : String) : Origin :=
  if policy.pinned.contains key then .assigned
  else if policy.fromClaims.contains key then .proven
  else if policy.derived.contains key then .derived
  else .caller

/-- Each required key has one tag, every tag has a value, and the origin that is declared for its key. -/
structure Complete (policy : EffectivePolicy Expr) (tags : List Tag) : Prop where
  required : ∀ key ∈ policy.requiredKeys, ∃ tag, tags.filter (·.key == key) = [tag]
  filled : ∀ tag ∈ tags, tag.value ≠ ""
  declared : ∀ tag ∈ tags, tag.origin = declaredOrigin policy tag.key

/-- No pinned value is empty, and no claim that stands for a key reads as the empty text. -/
structure Filled (json : JsonText) (policy : EffectivePolicy Expr) (claims : Option Claims) : Prop where
  pinned : ∀ key : String, policy.pinned[key]? ≠ some ""
  claims : ∀ key claim : String, policy.pinned[key]? = none → policy.fromClaims[key]? = some claim →
    (claims.bind (·.lookup claim)).bind (claimString json) ≠ some ""

variable {json : JsonText} {policy : EffectivePolicy Expr} {callerValue derivedValue : String → Option String}
  {claims : Option Claims} {key : String}

theorem resolveKey_origin {tag : Tag}
    (resolved : resolveKey json policy callerValue claims derivedValue key = some tag) :
    tag.origin = declaredOrigin policy key := by
  unfold resolveKey at resolved
  unfold declaredOrigin
  split at resolved
  next value pinned =>
    obtain rfl := Option.some.inj resolved
    rw [if_pos (Std.TreeMap.contains_eq_isSome_getElem?.trans (by rw [pinned]; rfl))]
  next pinned =>
    rw [if_neg (by simpa using pinned)]
    split at resolved
    next claim claimed =>
      obtain ⟨_, -, rfl⟩ := Option.map_eq_some_iff.mp resolved
      rw [if_pos (Std.TreeMap.contains_eq_isSome_getElem?.trans (by rw [claimed]; rfl))]
    next claimed =>
      rw [if_neg (by simpa using claimed)]
      split at resolved
      next derived =>
        obtain ⟨_, -, rfl⟩ := Option.map_eq_some_iff.mp resolved
        rw [if_pos derived]
      next derived =>
        obtain ⟨_, -, rfl⟩ := Option.map_eq_some_iff.mp resolved
        rw [if_neg derived]

/-- A key resolves to a tag without a value exactly when its pinned value is empty, or its claim reads as empty. -/
theorem resolveKey_empty_iff :
    (resolveKey json policy callerValue claims derivedValue key).map (·.value) = some "" ↔
      policy.pinned[key]? = some "" ∨
        ∃ claim, policy.pinned[key]? = none ∧ policy.fromClaims[key]? = some claim ∧
          (claims.bind (·.lookup claim)).bind (claimString json) = some "" := by
  have dropped (value : Option String) (origin : Origin) :
      ((value.filter fun value => !value.isEmpty).map (⟨key, ·, origin⟩ : String → Tag)).map (·.value) ≠ some "" := by
    cases value with
    | none => simp
    | some value => by_cases empty : value = "" <;> simp [empty, Option.filter]
  unfold resolveKey
  cases pinned : policy.pinned[key]? with
  | some value => simp
  | none =>
    cases claimed : policy.fromClaims[key]? with
    | some claim => simp [Option.map_map, Function.comp_def]
    | none =>
      simp only [reduceCtorEq, false_or, false_and, and_false, exists_false, iff_false]
      split
      · exact dropped _ _
      · exact dropped _ _

/-- Of the tags of distinct keys, one key has its own. -/
theorem filter_key {keys : List String} (distinct : keys.Nodup) :
    (keys.filterMap (resolveKey json policy callerValue claims derivedValue)).filter (·.key == key) =
      if key ∈ keys then (resolveKey json policy callerValue claims derivedValue key).toList else [] := by
  induction keys with
  | nil => rfl
  | cons first rest ih =>
    obtain ⟨fresh, others⟩ := List.nodup_cons.mp distinct
    have tail := ih others
    cases resolved : resolveKey json policy callerValue claims derivedValue first with
    | none =>
      rw [List.filterMap_cons_none resolved, tail]
      by_cases same : key = first
      · subst same
        simp [resolved, fresh]
      · simp [same]
    | some tag =>
      have named := resolveKey_key resolved
      rw [List.filterMap_cons_some resolved, List.filter_cons, tail, named]
      by_cases same : key = first
      · subst same
        simp [resolved, fresh]
      · simp [same, Ne.symm same]

/-- A key that is not missing has one tag, when it is required. -/
theorem resolve_required (complete : (resolve json policy callerValue claims derivedValue).missing = [])
    (required : key ∈ policy.requiredKeys) :
    ∃ tag, (resolve json policy callerValue claims derivedValue).tags.filter (·.key == key) = [tag] := by
  have known : key ∈ policy.keyUniverse.toList := by
    rw [Std.TreeSet.mem_toList, EffectivePolicy.keyUniverse, Std.TreeSet.mem_ofList]
    simp [required]
  have distinct : policy.keyUniverse.toList.Nodup := by
    refine Std.TreeSet.distinct_toList.imp fun differ same => ?_
    simp [same] at differ
  have found := List.filter_eq_nil_iff.mp complete key known
  obtain ⟨tag, resolved⟩ : ∃ tag, resolveKey json policy callerValue claims derivedValue key = some tag := by
    rw [← Option.isSome_iff_exists, Option.isSome_iff_ne_none]
    simpa [required] using found
  refine ⟨tag, ?_⟩
  rw [resolve, filter_key distinct, if_pos known, resolved]
  rfl

/-- When a resolution misses no key, every required key has one tag, and every tag has a value and the origin that is
    declared for its key, exactly when no pinned value is empty and no claim that stands for a key reads as empty. -/
theorem resolve_complete_iff {Expr : Type} (json : JsonText) (policy : EffectivePolicy Expr)
    (callerValue : String → Option String) (claims : Option Claims) (derivedValue : String → Option String)
    (complete : (resolve json policy callerValue claims derivedValue).missing = []) :
    Complete policy (resolve json policy callerValue claims derivedValue).tags ↔ Filled json policy claims := by
  have known (key : String) (declared : key ∈ policy.pinned ∨ key ∈ policy.fromClaims) :
      key ∈ policy.keyUniverse.toList := by
    rw [Std.TreeSet.mem_toList, EffectivePolicy.keyUniverse, Std.TreeSet.mem_ofList]
    rcases declared with pinned | claimed
    · simp [Std.TreeMap.mem_keys, pinned]
    · simp [Std.TreeMap.mem_keys, claimed]
  constructor
  · intro all
    -- A key that resolves to an empty value would have a tag without one.
    have none_empty (key : String) (listed : key ∈ policy.keyUniverse.toList) :
        (resolveKey json policy callerValue claims derivedValue key).map (·.value) ≠ some "" := by
      intro empty
      obtain ⟨tag, resolved, value⟩ := Option.map_eq_some_iff.mp empty
      exact all.filled tag (List.mem_filterMap.mpr ⟨key, listed, resolved⟩) value
    refine ⟨fun key pinned => ?_, fun key claim unpinned claimed empty => ?_⟩
    · have there : key ∈ policy.pinned := Std.TreeMap.mem_iff_isSome_getElem?.mpr (by rw [pinned]; rfl)
      exact none_empty key (known key (.inl there)) (resolveKey_empty_iff.mpr (.inl pinned))
    · have there : key ∈ policy.fromClaims := Std.TreeMap.mem_iff_isSome_getElem?.mpr (by rw [claimed]; rfl)
      exact none_empty key (known key (.inr there))
        (resolveKey_empty_iff.mpr (.inr ⟨claim, unpinned, claimed, empty⟩))
  · intro filled
    refine ⟨fun key required => resolve_required complete required, fun tag listed empty => ?_, fun tag listed => ?_⟩
    · obtain ⟨key, -, resolved⟩ := List.mem_filterMap.mp listed
      have value := congrArg (Option.map (·.value)) resolved
      rw [Option.map_some, empty, resolveKey_empty_iff] at value
      rcases value with pinned | ⟨claim, unpinned, claimed, empty⟩
      · exact filled.pinned key pinned
      · exact filled.claims key claim unpinned claimed empty
    · obtain ⟨key, -, resolved⟩ := List.mem_filterMap.mp listed
      rw [resolveKey_origin resolved, resolveKey_key resolved]

/-- The policy of a route in an accepted config: the environment is pinned, the team is a claim. -/
def claimedPolicy : EffectivePolicy Empty :=
  (Config.compileRoute noExpressions Config.claimedConfig Config.claimedRoute).effective

/-- The claims of a token that names these groups. -/
def groups (names : String) : Claims := [("groups", .string names)]

/-- What the policy pins and takes from claims. -/
theorem claimedPolicy_sources :
    claimedPolicy.pinned.toList = [("env", "prod")] ∧ claimedPolicy.fromClaims.toList = [("team", "groups")] := by
  decide

theorem named_group_complete :
    Complete claimedPolicy
      (resolve noTexts claimedPolicy (fun _ => none) (some (groups "ml")) fun _ => none).tags := by
  refine (resolve_complete_iff noTexts claimedPolicy (fun _ => none) (some (groups "ml")) (fun _ => none)
    (by decide)).mpr ⟨fun key pinned => ?_, fun key claim _ claimed => ?_⟩
  · have listed := Std.TreeMap.mem_toList_iff_getElem?_eq_some.mpr pinned
    rw [claimedPolicy_sources.1] at listed
    simp at listed
  · have listed := Std.TreeMap.mem_toList_iff_getElem?_eq_some.mpr claimed
    rw [claimedPolicy_sources.2, List.mem_singleton] at listed
    obtain ⟨-, rfl⟩ := Prod.mk.inj listed
    simp [groups, claimString]

/-- A token whose groups are empty gives the team a tag without a value, and no key is missing. -/
theorem empty_claim_resolves :
    ¬ ∀ (json : JsonText) (policy : EffectivePolicy Empty) (callerValue : String → Option String)
        (claims : Option Claims) (derivedValue : String → Option String),
      (resolve json policy callerValue claims derivedValue).missing = [] →
        Complete policy (resolve json policy callerValue claims derivedValue).tags := by
  intro claimed
  have complete := claimed noTexts claimedPolicy (fun _ => none) (some (groups "")) (fun _ => none) (by decide)
  have listed : (⟨"team", "", .proven⟩ : Tag) ∈
      (resolve noTexts claimedPolicy (fun _ => none) (some (groups "")) fun _ => none).tags := by
    decide
  exact complete.filled _ listed rfl

end SmallGateway.Attribution
