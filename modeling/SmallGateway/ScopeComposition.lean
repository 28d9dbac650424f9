import SmallGateway.AppSelection
import SmallGateway.Lib.Chains

/-!
What a chain of scopes composes to (`KeyCap::compose_child` in `gateway-core/src/budget.rs`, `compose` in
`gateway-core/src/scope.rs`). For caps the lowest scope that says something about a value wins, an explicit absence of
a cap included. A required key stays in the list while every scope below inherits, and a label does while no scope
below names its key (`scope_laws`).
-/

namespace SmallGateway.Config

variable {Expr : Type}

/-! ### Caps -/

/-- Two caps that are equal: their maps have the same entries. -/
structure KeyCap.Same (cap other : KeyCap) : Prop where
  default : cap.default = other.default
  overrides : cap.overrides.Equiv other.overrides
  window : cap.window = other.window
  alertFraction : cap.alertFraction = other.alertFraction

theorem getElem?_composeChild (cap child : KeyCap) (value : String) :
    (cap.composeChild child).overrides[value]? = child.overrides[value]?.or cap.overrides[value]? :=
  getElem?_overlay cap.overrides child.overrides value

theorem composeChild_assoc (upper middle lower : KeyCap) :
    ((upper.composeChild middle).composeChild lower).Same (upper.composeChild (middle.composeChild lower)) where
  default := Option.or_assoc.symm
  overrides := by
    refine Std.TreeMap.Equiv.of_forall_constGet?_eq fun value => ?_
    rw [getElem?_composeChild, getElem?_composeChild, getElem?_composeChild, getElem?_composeChild, Option.or_assoc]
  window := Option.or_assoc.symm
  alertFraction := Option.or_assoc.symm

/-- A cap below what its key has so far. -/
def composeOnto (held : Option KeyCap) (cap : KeyCap) : KeyCap :=
  match held with
  | some parent => parent.composeChild cap
  | none => cap

/-- The caps of one key, scope by scope. -/
theorem getElem?_mergeCaps (caps : Named KeyCap) (layer : Layer Expr) (key : String) :
    (mergeCaps caps layer)[key]? = (layer.spendCaps[key]?.map (composeOnto caps[key]?)).or caps[key]? :=
  Maps.getElem?_foldl_combine_toList composeOnto caps layer.spendCaps key

/-- What the lowest scope of a chain says about the cap of a key, of those that say anything. -/
def lowestCap {α : Type} (chain : List (Layer Expr)) (key : String) (look : KeyCap → Option α) : Option α :=
  Chains.lowest (fun layer => layer.spendCaps[key]?.bind look) chain

/-- A part of a cap where the lower scope wins. -/
def Inherited {α : Type} (look : KeyCap → Option α) : Prop :=
  ∀ cap child : KeyCap, look (cap.composeChild child) = (look child).or (look cap)

/-- Down a chain such a part is what the lowest scope says about it. -/
theorem composed_part {α : Type} (look : KeyCap → Option α) (inherited : Inherited look) (chain : List (Layer Expr))
    (key : String) : (chain.foldl mergeCaps ∅)[key]?.bind look = lowestCap chain key look := by
  induction chain using List.reverseRecOn with
  | nil => rw [List.foldl_nil, Std.TreeMap.getElem?_emptyc, lowestCap, Chains.lowest_nil, Option.bind_none]
  | append_singleton chain layer ih =>
    rw [List.foldl_append, List.foldl_cons, List.foldl_nil, getElem?_mergeCaps, lowestCap, Chains.lowest_concat,
      ← lowestCap, ← ih]
    cases own : layer.spendCaps[key]? with
    | none => rfl
    | some cap =>
      cases above : (chain.foldl mergeCaps ∅)[key]? with
      | none => simp [composeOnto]
      | some parent => simp [composeOnto, inherited parent cap]

theorem KeyCap.capFor_eq (cap : KeyCap) (value : String) :
    cap.capFor value = (cap.overrides[value]?).getD cap.default := by
  unfold KeyCap.capFor
  cases cap.overrides[value]? <;> rfl

/-- The cap of a value is the one of the lowest scope that mentions it, else the default of the lowest that has one. -/
theorem capFor_composed (base : Rejections) (chain : List (Layer Expr)) (ctx key value : String) :
    (compose base chain ctx).1.capFor key value =
      (lowestCap chain key fun cap => cap.overrides[value]?).getD (lowestCap chain key KeyCap.default) := by
  have mentioned := composed_part (fun cap => cap.overrides[value]?)
    (fun cap child => getElem?_composeChild cap child value) chain key
  have defaults := composed_part KeyCap.default (fun _ _ => rfl) chain key
  rw [← mentioned, ← defaults]
  show (chain.foldl mergeCaps ∅)[key]?.bind (·.capFor value) = _
  cases (chain.foldl mergeCaps ∅)[key]? with
  | none => rfl
  | some cap => exact cap.capFor_eq value

/-! ### Required keys -/

/-- The scope leaves the required keys above it in place: it lists none, or the marker. -/
def Layer.inheritsRequired (layer : Layer Expr) : Prop := layer.requiredKeys = [] ∨ baseMarker ∈ layer.requiredKeys

/-- The scope lists the required key. -/
def Layer.requires (layer : Layer Expr) (key : String) : Prop := key ∈ layer.requiredKeys ∧ key ≠ baseMarker

/-- A key is required when some scope lists it and every scope below inherits. -/
theorem required_iff (base : Rejections) (chain : List (Layer Expr)) (ctx key : String) :
    key ∈ (compose base chain ctx).1.requiredKeys ↔
      Chains.Kept Layer.inheritsRequired (Layer.requires · key) chain := by
  show key ∈ List.eraseDups _ ↔ _
  rw [List.mem_eraseDups]
  refine Chains.iff_kept (fun chain =>
    key ∈ chain.foldl (fun required layer => spliceRequired required layer.requiredKeys) []) (by simp) ?_ chain
  intro chain layer
  rw [List.foldl_append, List.foldl_cons, List.foldl_nil, mem_spliceRequired]
  rfl

theorem marker_not_required (base : Rejections) (chain : List (Layer Expr)) (ctx : String) :
    baseMarker ∉ (compose base chain ctx).1.requiredKeys := by
  rw [required_iff]
  rintro ⟨-, -, -, -, ⟨-, other⟩, -⟩
  exact other rfl

private theorem nodup_eraseDups (list : List String) : list.eraseDups.Nodup := by
  induction size : list.length using Nat.strong_induction_on generalizing list with
  | _ size ih =>
    cases list with
    | nil => exact List.nodup_nil
    | cons first rest =>
      rw [List.eraseDups_cons]
      refine List.nodup_cons.mpr ⟨by simp, ih _ ?_ _ rfl⟩
      have shorter := List.length_filter_le (fun entry => !entry == first) rest
      rw [← size, List.length_cons]
      omega

/-! ### Labels -/

/-- The scope leaves the labels above it in place: it lists none, or the marker. -/
def Layer.inheritsLabels (layer : Layer Expr) : Prop := layer.labels = [] ∨ LabelItem.base ∈ layer.labels

/-- The first value that a list of labels gives a key. -/
def labelIn (key : String) : List (LabelItem Expr) → Option (LabelValue Expr)
  | [] => none
  | .base :: rest => labelIn key rest
  | .label own value :: rest => if own = key then some value else labelIn key rest

def Layer.labelOf (layer : Layer Expr) (key : String) : Option (LabelValue Expr) := labelIn key layer.labels

/-- The labels of one scope below those above it. -/
def labelsBelow (above : List (ChainLabel Expr)) (depth : Nat) (layer : Layer Expr) : List (ChainLabel Expr) :=
  if layer.labels.isEmpty then above else spliceLabels above depth false layer.labels

theorem chainLabels_concat (above : List (ChainLabel Expr)) (depth : Nat) (chain : List (Layer Expr))
    (layer : Layer Expr) :
    chainLabels above depth (chain ++ [layer]) =
      labelsBelow (chainLabels above depth chain) (depth + chain.length) layer := by
  induction chain generalizing above depth with
  | nil => rfl
  | cons first rest ih =>
    rw [List.cons_append, chainLabels, ih, chainLabels, List.length_cons, Nat.add_assoc, Nat.add_comm 1]

section

variable {above : List (ChainLabel Expr)} {depth : Nat} {key : String}

/-- The labels of a scope are as deep as it is, those above it less deep. -/
theorem spliceLabels_depth (shallow : ∀ label ∈ above, label.depth < depth) (spliced : Bool)
    (items : List (LabelItem Expr)) : ∀ label ∈ spliceLabels above depth spliced items, label.depth ≤ depth := by
  induction items generalizing spliced with
  | nil => simp [spliceLabels]
  | cons item rest ih =>
    intro label listed
    cases item with
    | base =>
      rw [spliceLabels, List.mem_append] at listed
      rcases listed with inherited | further
      · cases spliced with
        | false => exact (shallow label (by simpa using inherited)).le
        | true => simp at inherited
      · exact ih true label further
    | label own value =>
      rw [spliceLabels, List.mem_cons] at listed
      rcases listed with rfl | further
      · exact le_rfl
      · exact ih spliced label further

theorem chainLabels_depth (chain : List (Layer Expr)) :
    ∀ label ∈ chainLabels [] 0 chain, label.depth < chain.length := by
  induction chain using List.reverseRecOn with
  | nil => simp [chainLabels]
  | append_singleton chain layer ih =>
    intro label listed
    rw [chainLabels_concat, Nat.zero_add, labelsBelow] at listed
    rw [List.length_append, List.length_singleton]
    split at listed
    · exact (ih label listed).trans (Nat.lt_succ_self _)
    · exact Nat.lt_succ_of_le (spliceLabels_depth ih false layer.labels label listed)

/-- Of the labels of one key the first of the deepest. -/
def winner (labels : List (ChainLabel Expr)) (key : String) : Option (LabelValue Expr) :=
  (labels.find? fun label => label.key == key && deepest labels key == label.depth).map (·.value)

theorem foldl_max_eq {numbers : List Nat} {most start : Nat} (bound : ∀ number ∈ numbers, number ≤ most)
    (low : start ≤ most) (reached : most ∈ numbers ∨ start = most) : numbers.foldl max start = most := by
  induction numbers generalizing start with
  | nil => simpa using reached
  | cons first rest ih =>
    have one := bound first List.mem_cons_self
    refine ih (fun number listed => bound number (List.mem_cons_of_mem _ listed)) (by omega) ?_
    rcases reached with listed | rfl
    · rcases List.mem_cons.mp listed with rfl | further
      · exact .inr (by omega)
      · exact .inl further
    · exact .inr (by omega)

/-- Where the scope names the key, its first value is found at its depth. -/
theorem find?_spliceLabels (key : String) (shallow : ∀ label ∈ above, label.depth < depth) (spliced : Bool)
    (items : List (LabelItem Expr)) :
    (spliceLabels above depth spliced items).find? (fun label => label.key == key && depth == label.depth) =
      (labelIn key items).map fun value => ⟨depth, key, value⟩ := by
  induction items generalizing spliced with
  | nil => rfl
  | cons item rest ih =>
    cases item with
    | base =>
      have other : (if spliced then [] else above).find? (fun label => label.key == key && depth == label.depth) =
          none := by
        refine List.find?_eq_none.mpr fun label listed => ?_
        cases spliced with
        | false =>
          have less := shallow label (by simpa using listed)
          simp [less.ne']
        | true => simp at listed
      rw [spliceLabels, List.find?_append, other, Option.none_or, ih, labelIn]
    | label own value =>
      by_cases same : own = key
      · simp [spliceLabels, labelIn, same]
      · simp [spliceLabels, labelIn, same, ih]

/-- A scope that neither names the key nor splices what is above it has no label of the key. -/
theorem filter_unspliced (above : List (ChainLabel Expr)) (depth : Nat) {spliced : Bool} {items : List (LabelItem Expr)}
    (closed : spliced = true ∨ LabelItem.base ∉ items) (unnamed : labelIn key items = none) :
    (spliceLabels above depth spliced items).filter (·.key == key) = [] := by
  induction items generalizing spliced with
  | nil => rfl
  | cons item rest ih =>
    cases item with
    | base =>
      have already : spliced = true := by simpa using closed
      rw [spliceLabels, if_pos already, List.nil_append]
      exact ih (.inl rfl) unnamed
    | label own value =>
      have other : own ≠ key := fun same => by simp [labelIn, same] at unnamed
      rw [labelIn, if_neg other] at unnamed
      rw [spliceLabels, List.filter_cons_of_neg (by simpa using other)]
      exact ih (closed.imp_right fun absent listed => absent (List.mem_cons_of_mem _ listed)) unnamed

/-- A scope that splices without naming the key has the labels of the key that are above it. -/
theorem filter_spliced {items : List (LabelItem Expr)} (marked : LabelItem.base ∈ items)
    (unnamed : labelIn key items = none) :
    (spliceLabels above depth false items).filter (·.key == key) = above.filter (·.key == key) := by
  induction items with
  | nil => simp at marked
  | cons item rest ih =>
    cases item with
    | base =>
      have once := filter_unspliced above depth (.inl rfl)
        (show labelIn key rest = none from unnamed)
      rw [spliceLabels, List.filter_append, once, List.append_nil]
      rfl
    | label own value =>
      have other : own ≠ key := fun same => by simp [labelIn, same] at unnamed
      rw [labelIn, if_neg other] at unnamed
      rw [spliceLabels, List.filter_cons_of_neg (by simpa using other)]
      exact ih (by simpa using marked) unnamed

/-- The winner is among the labels of its key. -/
theorem winner_congr {labels others : List (ChainLabel Expr)}
    (same : labels.filter (·.key == key) = others.filter (·.key == key)) : winner labels key = winner others key := by
  have among (list : List (ChainLabel Expr)) : winner list key =
      ((list.filter (·.key == key)).find? fun label =>
        ((list.filter (·.key == key)).map (·.depth)).foldl max 0 == label.depth).map (·.value) := by
    rw [List.find?_filter, winner, deepest]
    simp only [Bool.decide_and, Bool.decide_eq_true]
  rw [among, among, same]

/-- The deepest label of a key that the scope names is one of the scope's. -/
theorem deepest_named (shallow : ∀ label ∈ above, label.depth < depth) {items : List (LabelItem Expr)}
    {value : LabelValue Expr} (named : labelIn key items = some value) :
    deepest (spliceLabels above depth false items) key = depth := by
  have found := find?_spliceLabels key shallow false items
  rw [named, Option.map_some] at found
  refine foldl_max_eq (fun number listed => ?_) (Nat.zero_le _) (.inl ?_)
  · obtain ⟨label, among, rfl⟩ := List.mem_map.mp listed
    exact spliceLabels_depth shallow false items label (List.mem_filter.mp among).1
  · refine List.mem_map.mpr ⟨⟨depth, key, value⟩, List.mem_filter.mpr ⟨List.mem_of_find?_eq_some found, ?_⟩, rfl⟩
    exact beq_self_eq_true key

/-- One more scope gives the key its value, or leaves it the one it has when the scope inherits. -/
theorem winner_below (shallow : ∀ label ∈ above, label.depth < depth) (layer : Layer Expr) (value : LabelValue Expr) :
    winner (labelsBelow above depth layer) key = some value ↔
      ((layer.inheritsLabels ∧ layer.labelOf key = none) ∧ winner above key = some value) ∨
        layer.labelOf key = some value := by
  unfold labelsBelow Layer.inheritsLabels
  cases named : layer.labelOf key with
  | some own =>
    have listed : layer.labels.isEmpty = false := by
      cases items : layer.labels with
      | nil => simp [Layer.labelOf, items, labelIn] at named
      | cons => rfl
    rw [listed, if_neg Bool.false_ne_true, winner, deepest_named shallow named, find?_spliceLabels key shallow,
      ← Layer.labelOf, named]
    simp
  | none =>
    by_cases empty : layer.labels = []
    · simp [empty]
    · rw [if_neg (by simpa using empty)]
      by_cases marked : LabelItem.base ∈ layer.labels
      · rw [winner_congr (filter_spliced marked named)]
        simp [marked]
      · have gone : winner (spliceLabels above depth false layer.labels) key = winner [] key :=
          winner_congr (filter_unspliced above depth (.inr marked) named)
        rw [gone]
        simp [empty, marked, winner]

end

/-- What is kept of the labels of a key is the winner. -/
theorem mem_finalLabels (labels : List (ChainLabel Expr)) (emitted : List String) (rest : List (ChainLabel Expr))
    (label : EffectiveLabel Expr) :
    label ∈ finalLabels labels emitted rest ↔
      label.key ∉ emitted ∧
        (rest.find? fun one => one.key == label.key && deepest labels label.key == one.depth).map (·.value) =
          some label.value := by
  induction rest generalizing emitted with
  | nil => simp [finalLabels]
  | cons first rest ih =>
    rw [finalLabels]
    by_cases same : first.key = label.key
    · by_cases won : deepest labels label.key = first.depth
      · rw [List.find?_cons_of_pos (by simp [same, won])]
        rcases label with ⟨key, value⟩
        obtain rfl : first.key = key := same
        by_cases before : first.key ∈ emitted
        · simp [won, before, ih]
        · simp [won, before, ih, eq_comm]
      · rw [same, if_neg fun both => won both.1, ih, List.find?_cons_of_neg (by simp [won])]
    · rw [List.find?_cons_of_neg (by simp [same])]
      split
      · rw [List.mem_cons, ih]
        have other : label ≠ ⟨first.key, first.value⟩ := fun equal => same (by rw [equal])
        simp [other, Ne.symm same]
      · exact ih emitted

theorem finalLabels_distinct (labels : List (ChainLabel Expr)) (emitted : List String)
    (rest : List (ChainLabel Expr)) : ((finalLabels labels emitted rest).map (·.key)).Nodup := by
  induction rest generalizing emitted with
  | nil => exact List.nodup_nil
  | cons first rest ih =>
    rw [finalLabels]
    split
    · refine List.nodup_cons.mpr ⟨fun again => ?_, ih _⟩
      obtain ⟨label, listed, same⟩ := List.mem_map.mp again
      have fresh := ((mem_finalLabels labels _ rest label).mp listed).1
      exact fresh (same ▸ List.mem_cons_self)
    · exact ih emitted

/-- The scope inherits the labels above it, and has none of its own for the key. -/
def Layer.leavesLabel (key : String) (layer : Layer Expr) : Prop := layer.inheritsLabels ∧ layer.labelOf key = none

/-- A label is there when some scope gives its key this value first and every scope below leaves it. -/
theorem labels_iff (base : Rejections) (chain : List (Layer Expr)) (ctx : String) (label : EffectiveLabel Expr) :
    label ∈ (compose base chain ctx).1.labels ↔
      Chains.Kept (Layer.leavesLabel label.key) (fun layer => layer.labelOf label.key = some label.value) chain := by
  show label ∈ finalLabels (chainLabels [] 0 chain) [] (chainLabels [] 0 chain) ↔ _
  rw [mem_finalLabels, ← winner]
  refine Iff.trans (and_iff_right List.not_mem_nil) ?_
  refine Chains.iff_kept (fun chain => winner (chainLabels [] 0 chain) label.key = some label.value)
    (by simp [chainLabels, winner]) (fun chain layer => ?_) chain
  rw [chainLabels_concat, Nat.zero_add]
  exact winner_below (chainLabels_depth chain) layer label.value

/-- The value a list of labels gives a key is in the list. -/
theorem mem_of_labelIn {key : String} {items : List (LabelItem Expr)} {value : LabelValue Expr}
    (named : labelIn key items = some value) : LabelItem.label key value ∈ items := by
  induction items with
  | nil => simp [labelIn] at named
  | cons item rest ih =>
    cases item with
    | base => exact List.mem_cons_of_mem _ (ih named)
    | label own held =>
      rw [labelIn] at named
      split at named
      case isTrue same =>
        rw [same, Option.some.inj named]
        exact List.mem_cons_self
      case isFalse => exact List.mem_cons_of_mem _ (ih named)

/-! ### The laws -/

/-- Caps compose associatively, and the cap of a value is the one of the lowest scope that mentions it, else the
    default of the lowest scope that has one. Required keys and labels are without marker and without duplicates. What
    a chain inherits is kept by all scopes below, or added again by one of them that those below it leave alone. -/
theorem scope_laws (base : Rejections) (ctx : String) :
    (∀ upper middle lower : KeyCap,
      ((upper.composeChild middle).composeChild lower).Same (upper.composeChild (middle.composeChild lower))) ∧
    ∀ chain : List (Layer Expr),
      let policy := (compose base chain ctx).1
      (∀ key value, policy.capFor key value =
        (lowestCap chain key fun cap => cap.overrides[value]?).getD (lowestCap chain key KeyCap.default)) ∧
      (baseMarker ∉ policy.requiredKeys ∧ policy.requiredKeys.Nodup) ∧
      ((∀ label ∈ policy.labels, ∃ layer ∈ chain, LabelItem.label label.key label.value ∈ layer.labels) ∧
        (policy.labels.map (·.key)).Nodup) ∧
      ∀ upper lower, chain = upper ++ lower →
        (∀ key ∈ (compose base upper ctx).1.requiredKeys, key ∈ policy.requiredKeys ↔
          (∀ layer ∈ lower, layer.inheritsRequired) ∨
            Chains.Kept Layer.inheritsRequired (Layer.requires · key) lower) ∧
        ∀ label ∈ (compose base upper ctx).1.labels, label ∈ policy.labels ↔
          (∀ layer ∈ lower, layer.leavesLabel label.key) ∨
            Chains.Kept (Layer.leavesLabel label.key) (fun layer => layer.labelOf label.key = some label.value)
              lower := by
  refine ⟨composeChild_assoc, fun chain => ⟨capFor_composed base chain ctx, ⟨marker_not_required base chain ctx,
    nodup_eraseDups _⟩, ⟨fun label listed => ?_, finalLabels_distinct _ [] _⟩, ?_⟩⟩
  · obtain ⟨upper, layer, lower, rfl, named, -⟩ := (labels_iff base chain ctx label).mp listed
    exact ⟨layer, by simp, mem_of_labelIn named⟩
  · rintro upper lower rfl
    constructor
    · intro key inherited
      have above := (required_iff base upper ctx key).mp inherited
      rw [required_iff, Chains.kept_append, and_iff_right above]
    · intro label inherited
      have above := (labels_iff base upper ctx label).mp inherited
      rw [labels_iff, Chains.kept_append, and_iff_right above]

/-- A scope with required keys and labels, and nothing else. -/
def Layer.listing (requiredKeys : List String) (labels : List (LabelItem Unit)) : Layer Unit :=
  ⟨"scope", requiredKeys, ∅, ∅, ∅, ∅, labels, ∅, none, .none⟩

/-- A scope without the marker keeps an inherited key by naming it, and one with the marker loses an inherited label
    whose key it names. -/
theorem inherited_key_is_named_again :
    ¬ (∀ (base : Rejections) (ctx key : String) (upper lower : List (Layer Unit)),
        key ∈ (compose base upper ctx).1.requiredKeys →
        (key ∈ (compose base (upper ++ lower) ctx).1.requiredKeys ↔ ∀ layer ∈ lower, layer.inheritsRequired)) ∧
    ¬ (∀ (base : Rejections) (ctx : String) (label : EffectiveLabel Unit) (upper lower : List (Layer Unit)),
        label ∈ (compose base upper ctx).1.labels →
        (label ∈ (compose base (upper ++ lower) ctx).1.labels ↔ ∀ layer ∈ lower, layer.inheritsLabels)) := by
  let base : Rejections := ⟨defaultModelNotAllowed, defaultModelNotAllowed, none, none, none⟩
  constructor
  · intro law
    let scope := Layer.listing ["team"] []
    have above : "team" ∈ (compose base [scope] "").1.requiredKeys := by decide
    have below : "team" ∈ (compose base ([scope] ++ [scope]) "").1.requiredKeys := by decide
    have inherits := (law base "" "team" [scope] [scope] above).mp below scope (by simp)
    revert inherits
    simp [Layer.inheritsRequired, scope, Layer.listing, baseMarker]
  · intro law
    let upper := Layer.listing [] [.label "env" (.static "dev")]
    let lower := Layer.listing [] [.base, .label "env" (.static "prod")]
    have above : (⟨"env", .static "dev"⟩ : EffectiveLabel Unit) ∈ (compose base [upper] "").1.labels := by
      simp [compose, chainLabels, spliceLabels, finalLabels, deepest, upper, Layer.listing]
    have kept := (law base "" _ [upper] [lower] above).mpr (by simp [Layer.inheritsLabels, lower, Layer.listing])
    revert kept
    simp [compose, chainLabels, spliceLabels, finalLabels, deepest, upper, lower, Layer.listing]

end SmallGateway.Config
