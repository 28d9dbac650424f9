import SmallGateway.RequestBody
import SmallGateway.Validate

/-!
What the rewriting of a request body leaves of it (`merge_into_body` and `inject_into_body` in
`gateway-core/src/labels.rs`). The fields are written one after the other into one tree. Every forced field is held at the
end, every optional one leaves what the caller has at its path, and nothing else changes, whatever body comes in, exactly
when no path of the fields runs through another of them, and no path is both forced and optional or forced to two values
(`body_rewriting_iff`).
-/

namespace SmallGateway

open Json (Value insertField innerFields writeAt)

/-! ### What the rewriting is to do -/

/-- The forced fields are held, an optional field leaves what is at its path, and paths that have nothing to do with the
    fields are left alone. -/
structure Injected (fields : List ResolvedBodyField) (root result : List (String × Value)) : Prop where
  forced : ∀ f ∈ forcedOf fields, f.HeldBy (.object result)
  kept : ∀ f ∈ fields, f.ifAbsent = true → ∀ value, (Value.object root).at? f.segments = some value →
    (Value.object result).at? f.segments = some value
  unrelated : ∀ path, (∀ f ∈ fields, ¬ path <+: f.segments ∧ ¬ f.segments <+: path) →
    (Value.object result).at? path = (Value.object root).at? path

/-- The labels of the operator are there, the last one of each key, with the other labels of the caller. -/
structure Merged (operator : List (String × String)) (root result : List (String × Value)) : Prop where
  labels : ∃ labels, result.lookup "labels" = some (.object labels) ∧
    (∀ key value, operator.reverse.lookup key = some value → labels.lookup key = some (.string value)) ∧
    ∀ key, operator.reverse.lookup key = none → labels.lookup key = (innerFields root "labels").lookup key
  others : ∀ name, name ≠ "labels" → result.lookup name = root.lookup name

/-- No field but the path's own optional ones writes at the path, above it or below it. -/
def Undisturbed (fields : List ResolvedBodyField) (path : List String) : Prop :=
  ∀ g ∈ fields, (path <+: g.segments → path = g.segments) ∧ (g.ifAbsent = false → ¬ g.segments <+: path)

/-- The forced fields agree, and nothing disturbs an optional one. -/
def Apart (fields : List ResolvedBodyField) : Prop :=
  Agree (forcedOf fields) ∧ ∀ f ∈ fields, f.ifAbsent = true → Undisturbed fields f.segments

instance (fields : List ResolvedBodyField) (path : List String) : Decidable (Undisturbed fields path) :=
  inferInstanceAs (Decidable (∀ g ∈ fields, _ ∧ _))

instance (fields : List ResolvedBodyField) : Decidable (Apart fields) :=
  inferInstanceAs (Decidable (_ ∧ ∀ f ∈ fields, _ → _))

/-- The fields of a body after the injection. -/
def injectFields (fields : List ResolvedBodyField) (root : List (String × Value)) : List (String × Value) :=
  fields.foldl injectField root

/-- The labels after the merge. -/
def mergeLabels (operator : List (String × String)) (labels : List (String × Value)) : List (String × Value) :=
  operator.foldl (fun labels (key, value) => insertField labels key (.string value)) labels

/-! ### What one field leaves -/

section

variable {root : List (String × Value)} {fields : List ResolvedBodyField} {field : ResolvedBodyField} {path : List String}
  {value : Value}

/-- A field that does not disturb a path leaves what is there. -/
theorem injectField_kept (through : path <+: field.segments → path = field.segments)
    (above : field.ifAbsent = false → ¬ field.segments <+: path)
    (there : (Value.object root).at? path = some value) :
    (Value.object (injectField root field)).at? path = some value := by
  by_cases below : field.segments <+: path
  · have optional : field.ifAbsent = true := by
      by_contra forced
      exact above (Bool.not_eq_true _ ▸ forced) below
    rw [injectField_present root optional below (by rw [there]; rfl), there]
  · have notAbove : ¬ path <+: field.segments := fun above => below (through above ▸ List.prefix_rfl)
    rw [injectField_apart root notAbove below, there]

/-- A field that leaves a null at a path has found it there, and does not disturb the path. -/
theorem injectField_null (left : (Value.object (injectField root field)).at? path = some .null) :
    (Value.object root).at? path = some .null ∧ (path <+: field.segments → path = field.segments) ∧
      (field.ifAbsent = false → ¬ field.segments <+: path) := by
  have through : path <+: field.segments → path = field.segments := by
    intro above
    by_contra strict
    obtain ⟨inner, made⟩ := injectField_above root above strict
    rw [made] at left
    cases left
  have above : field.ifAbsent = false → ¬ field.segments <+: path := by
    rintro forced ⟨more, rfl⟩
    have held := injectField_forced root forced
    by_cases none_ : more = []
    · rw [none_, List.append_nil, held] at left
      cases left
    · rw [Value.at?_below_string held none_] at left
      cases left
  refine ⟨?_, through, above⟩
  by_cases below : field.segments <+: path
  · have optional : field.ifAbsent = true := by
      by_contra forced
      exact above (Bool.not_eq_true _ ▸ forced) below
    obtain ⟨more, rfl⟩ := below
    cases found : (Value.object root).at? field.segments with
    | some inner =>
      have same := injectField_present root optional List.prefix_rfl (by rw [found]; rfl)
      rwa [Value.at?_append, same, ← Value.at?_append] at left
    | none =>
      -- The field is written, and a text is no null and has nothing below it.
      have held : (Value.object (injectField root field)).at? field.segments = some (.string field.value) := by
        rw [injectField, optional]
        exact Json.at?_writeAt_absent _ root field.head field.tail found
      by_cases none_ : more = []
      · rw [none_, List.append_nil, held] at left
        cases left
      · rw [Value.at?_below_string held none_] at left
        cases left
  · have notAbove : ¬ path <+: field.segments := fun above => below (through above ▸ List.prefix_rfl)
    rwa [injectField_apart root notAbove below] at left

/-! ### What all of them leave -/

theorem injectFields_kept (undisturbed : Undisturbed fields path) (there : (Value.object root).at? path = some value) :
    (Value.object (injectFields fields root)).at? path = some value := by
  induction fields generalizing root with
  | nil => exact there
  | cons field rest ih =>
    obtain ⟨⟨through, above⟩, later⟩ := List.forall_mem_cons.mp undisturbed
    exact ih later (injectField_kept through above there)

/-- A null is left only by fields that do not disturb its path. -/
theorem undisturbed_of_null (left : (Value.object (injectFields fields root)).at? path = some .null) :
    Undisturbed fields path := by
  induction fields using List.reverseRecOn with
  | nil => exact nofun
  | append_singleton before field ih =>
    rw [injectFields, List.foldl_append] at left
    obtain ⟨still, through, above⟩ := injectField_null left
    intro g listed
    rcases List.mem_append.mp listed with earlier | last
    · exact ih still g earlier
    · rw [List.mem_singleton.mp last]
      exact ⟨through, above⟩

theorem injectFields_unrelated (apart : ∀ f ∈ fields, ¬ path <+: f.segments ∧ ¬ f.segments <+: path) :
    (Value.object (injectFields fields root)).at? path = (Value.object root).at? path := by
  induction fields generalizing root with
  | nil => rfl
  | cons field rest ih =>
    obtain ⟨⟨notAbove, notBelow⟩, later⟩ := List.forall_mem_cons.mp apart
    exact (ih later).trans (injectField_apart root notAbove notBelow)

/-- A null at a path of fields, alone in its object. -/
def nullAt : String → List String → List (String × Value)
  | key, [] => [(key, .null)]
  | key, next :: path => [(key, .object (nullAt next path))]

theorem at?_nullAt (key : String) (path : List String) :
    (Value.object (nullAt key path)).at? (key :: path) = some .null := by
  induction path generalizing key with
  | nil =>
    rw [Value.at?_object, nullAt, List.lookup_cons_self]
    rfl
  | cons next path ih =>
    rw [Value.at?_object, nullAt, List.lookup_cons_self, Option.bind_some, ih]

/-- Where nothing disturbs an optional field, no forced one needs to be forced again after it. -/
theorem consistent_of_apart (apart : Apart fields) : Consistent fields := by
  refine ⟨apart.1, ?_⟩
  have none_ : ∀ f ∈ fields, f.ifAbsent = true → ∀ g ∈ forcedOf fields, ¬ g.segments <+: f.segments := by
    intro f listed optional g forced
    obtain ⟨among, isForced⟩ := mem_forcedOf.mp forced
    exact (apart.2 f listed optional g among).2 isForced
  have restored (rest : List ResolvedBodyField) (within : ∀ f ∈ rest, f ∈ fields) : Restored (forcedOf fields) rest := by
    induction rest with
    | nil => trivial
    | cons field rest ih =>
      obtain ⟨here, later⟩ := List.forall_mem_cons.mp within
      exact ⟨fun optional g forced through _ => absurd through (none_ field here optional g forced), ih later⟩
  exact restored fields fun _ listed => listed

/-- The injection does what it is to do to every body exactly when the fields are apart. -/
theorem injected_iff_apart (fields : List ResolvedBodyField) :
    (∀ root, Injected fields root (injectFields fields root)) ↔ Apart fields := by
  constructor
  · intro lawful
    refine ⟨((injected_iff_consistent [] fields).mp (lawful []).forced).1, fun f listed optional => ?_⟩
    have kept := (lawful (nullAt f.head f.tail)).kept f listed optional .null (at?_nullAt f.head f.tail)
    exact undisturbed_of_null kept
  · intro apart root
    exact ⟨(injected_iff_consistent root fields).mpr (consistent_of_apart apart),
      fun f listed optional value there => injectFields_kept (apart.2 f listed optional) there,
      fun path others => injectFields_unrelated others⟩

end

/-! ### The labels -/

/-- The last label of a key that the operator sets, or the one that is there. -/
theorem lookup_mergeLabels (operator : List (String × String)) (labels : List (String × Value)) (key : String) :
    (mergeLabels operator labels).lookup key =
      ((operator.reverse.lookup key).map Value.string).or (labels.lookup key) := by
  induction operator generalizing labels with
  | nil => rfl
  | cons label rest ih =>
    obtain ⟨name, value⟩ := label
    have step : mergeLabels ((name, value) :: rest) labels =
        mergeLabels rest (insertField labels name (.string value)) := rfl
    rw [step, ih, Json.lookup_insertField, List.reverse_cons, List.lookup_append]
    cases rest.reverse.lookup key with
    | some later => rfl
    | none =>
      by_cases own : key = name
      · subst own
        simp
      · simp [own, List.lookup_cons, beq_false_of_ne own]

theorem merged_insertField (operator : List (String × String)) (root : List (String × Value)) :
    Merged operator root
      (insertField root "labels" (.object (mergeLabels operator (innerFields root "labels")))) := by
  refine ⟨⟨mergeLabels operator (innerFields root "labels"), ?_, fun key value last => ?_, fun key none_ => ?_⟩, ?_⟩
  · rw [Json.lookup_insertField, if_pos rfl]
  · rw [lookup_mergeLabels, last]
    rfl
  · rw [lookup_mergeLabels, none_]
    rfl
  · intro name other
    rw [Json.lookup_insertField, if_neg other]

/-! ### Bodies -/

theorem injectIntoBody_object {json : JsonText} {body : List UInt8} {root : List (String × Value)}
    (isObject : json.fromSlice body = .ok (.object root)) (fields : List ResolvedBodyField) :
    injectIntoBody json body fields =
      .ok (if fields = [] then body else json.toVec (.object (injectFields fields root))) := by
  unfold injectIntoBody
  split
  · rfl
  · simp only [isObject]
    rfl

theorem mergeIntoBody_object {json : JsonText} {body : List UInt8} {root : List (String × Value)}
    (isObject : json.fromSlice body = .ok (.object root)) {operator : List (String × String)} (some_ : operator ≠ []) :
    mergeIntoBody json body operator = .ok (json.toVec
      (.object (insertField root "labels" (.object (mergeLabels operator (innerFields root "labels")))))) := by
  unfold mergeIntoBody
  rw [if_neg some_]
  simp only [isObject]
  rfl

/-- A body that is an object is written with the injected fields, which are as they are to be for every body exactly when
    the fields are apart, and with the merged labels. -/
theorem body_rewriting_iff (json : JsonText) (fields : List ResolvedBodyField) :
    (∀ body root, json.fromSlice body = .ok (.object root) → injectIntoBody json body fields =
        .ok (if fields = [] then body else json.toVec (.object (injectFields fields root)))) ∧
      ((∀ root, Injected fields root (injectFields fields root)) ↔ Apart fields) ∧
      ∀ body root operator, json.fromSlice body = .ok (.object root) → operator ≠ [] →
        ∃ result, mergeIntoBody json body operator = .ok (json.toVec (.object result)) ∧ Merged operator root result :=
  ⟨fun _ _ isObject => injectIntoBody_object isObject fields, injected_iff_apart fields,
    fun _ root operator isObject some_ => ⟨_, mergeIntoBody_object isObject some_, merged_insertField operator root⟩⟩

/-- A field and one below it, as an operator may write them. -/
def nestedFields : Injection := ⟨[], [⟨"guard", .bare "strict", false⟩, ⟨"guard.id", .bare "g1", true⟩]⟩

/-- The field above is replaced by an object for the one below. -/
theorem nested_field_is_replaced :
    let provider : Config.Provider := ⟨.openai, ⟨"api", 443⟩, some nestedFields, none, none, none⟩
    let fields : List ResolvedBodyField := [⟨"guard", "strict", false⟩, ⟨"guard.id", "g1", true⟩]
    Config.validateInjection "p" provider nestedFields = [] ∧
      (resolveInjection nestedFields []).toOption.map (·.body) = some fields ∧
      ¬ Injected fields [] (injectFields fields []) := by
  refine ⟨by decide, by decide, fun lawful => ?_⟩
  have held := lawful.forced ⟨"guard", "strict", false⟩ List.mem_cons_self
  have made : (Value.object (injectFields [⟨"guard", "strict", false⟩, ⟨"guard.id", "g1", true⟩] [])).at? ["guard"] =
      some (.object [("id", .string "g1")]) := rfl
  cases made.symm.trans held

end SmallGateway
