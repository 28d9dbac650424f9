import SmallGateway.Adapters

/-!
The rewriting of a request body (`gateway-core/src/labels.rs`): the operator's billing labels merged over the
caller's, and the operator's forced fields written at dotted paths. The main result says for which lists of
fields every forced one is in the body that comes out, whatever body went in (`injected_iff_consistent`).
-/

namespace SmallGateway

open Json (Value insertField writeAt)

/-- One resolved forced body field: the dotted path, the operator's value, and whether it only applies when
    the path is absent. -/
structure ResolvedBodyField where
  path : String
  value : String
  ifAbsent : Bool
  deriving DecidableEq, Repr

/-- The first segment of a dotted path and the others. -/
def splitDots : List Char → List Char × List (List Char)
  | [] => ([], [])
  | c :: rest =>
    let (first, others) := splitDots rest
    if c = '.' then ([], first :: others) else (c :: first, others)

/-- The first segment of a field's path. -/
def ResolvedBodyField.head (field : ResolvedBodyField) : String :=
  String.ofList (splitDots field.path.toList).1

/-- The segments of a field's path after the first. -/
def ResolvedBodyField.tail (field : ResolvedBodyField) : List String :=
  (splitDots field.path.toList).2.map String.ofList

def ResolvedBodyField.segments (field : ResolvedBodyField) : List String := field.head :: field.tail

variable (json : JsonText)

/-- Merges operator labels into a request body. Labels of the caller stay unless the operator names them
    too. -/
def mergeIntoBody (body : List UInt8) (operator : List (String × String)) :
    Except String (List UInt8) :=
  if operator = [] then .ok body
  else
    match json.fromSlice body with
    | .error e => .error ("request body is not valid JSON: " ++ e)
    | .ok (.object root) =>
      let labels := operator.foldl (fun labels (key, value) => insertField labels key (.string value))
        (Json.innerFields root "labels")
      .ok (json.toVec (.object (insertField root "labels" (.object labels))))
    | .ok _ => .error "request body is not a JSON object"

/-- One forced field written into the fields of a body. -/
def injectField (root : List (String × Value)) (field : ResolvedBodyField) : List (String × Value) :=
  writeAt (.string field.value) field.ifAbsent root field.head field.tail

/-- Writes the operator's fields into a request body, in order. -/
def injectIntoBody (body : List UInt8) (fields : List ResolvedBodyField) : Except String (List UInt8) :=
  if fields = [] then .ok body
  else
    match json.fromSlice body with
    | .error e => .error ("request body is not valid JSON: " ++ e)
    | .ok (.object root) => .ok (json.toVec (.object (fields.foldl injectField root)))
    | .ok _ => .error "request body is not a JSON object"

/-! ### Which forced fields are in the result -/

/-- The value holds the field's own value at its path. -/
def ResolvedBodyField.HeldBy (field : ResolvedBodyField) (value : Value) : Prop :=
  value.at? field.segments = some (.string field.value)

/-- The fields that override unconditionally. -/
def forcedOf (fields : List ResolvedBodyField) : List ResolvedBodyField :=
  fields.filter fun field => !field.ifAbsent

theorem mem_forcedOf {fields : List ResolvedBodyField} {field : ResolvedBodyField} :
    field ∈ forcedOf fields ↔ field ∈ fields ∧ field.ifAbsent = false := by
  simp [forcedOf]

/-- Two forced fields do not contradict each other: neither path runs through the other, and one path has one
    value. -/
def Agree (forced : List ResolvedBodyField) : Prop :=
  ∀ f ∈ forced, ∀ g ∈ forced, f.segments <+: g.segments → f.segments = g.segments ∧ f.value = g.value

/-- A field that only applies when absent still replaces what is no object on the way to its path. After each
    of them whose path runs through a forced one, that path is forced again. -/
def Restored (forced : List ResolvedBodyField) : List ResolvedBodyField → Prop
  | [] => True
  | field :: after =>
    (field.ifAbsent = true → ∀ f ∈ forced, f.segments <+: field.segments → f.segments ≠ field.segments →
      ∃ g ∈ after, g.ifAbsent = false ∧ g.segments = f.segments) ∧ Restored forced after

/-- Every forced field survives the fields written after it. -/
def Consistent (fields : List ResolvedBodyField) : Prop :=
  Agree (forcedOf fields) ∧ Restored (forcedOf fields) fields

instance (forced : List ResolvedBodyField) : Decidable (Agree forced) :=
  inferInstanceAs (Decidable (∀ f ∈ forced, ∀ g ∈ forced, _ → _))

instance decidableRestored (forced : List ResolvedBodyField) : ∀ fields, Decidable (Restored forced fields)
  | [] => isTrue trivial
  | _ :: after =>
    have := decidableRestored forced after
    inferInstanceAs (Decidable ((_ → ∀ f ∈ forced, _ → _ → ∃ g ∈ after, _) ∧ _))

instance (fields : List ResolvedBodyField) : Decidable (Consistent fields) :=
  inferInstanceAs (Decidable (_ ∧ _))

section

variable (root : List (String × Value)) {field : ResolvedBodyField} {path : List String}

theorem injectField_forced (forced : field.ifAbsent = false) :
    (Value.object (injectField root field)).at? field.segments = some (.string field.value) := by
  rw [injectField, forced]
  exact Json.at?_writeAt_same _ root field.head field.tail

theorem injectField_above (prefixed : path <+: field.segments) (strict : path ≠ field.segments) :
    ∃ inner, (Value.object (injectField root field)).at? path = some (.object inner) :=
  Json.at?_writeAt_above _ _ root field.head field.tail prefixed strict

theorem injectField_apart (notAbove : ¬ path <+: field.segments) (notBelow : ¬ field.segments <+: path) :
    (Value.object (injectField root field)).at? path = (Value.object root).at? path :=
  Json.at?_writeAt_apart _ _ root field.head field.tail notAbove notBelow

theorem injectField_present (optional : field.ifAbsent = true) (below : field.segments <+: path)
    (present : ((Value.object root).at? path).isSome = true) :
    (Value.object (injectField root field)).at? path = (Value.object root).at? path := by
  rw [injectField, optional]
  exact Json.at?_writeAt_present _ root field.head field.tail below present

end

/-- A forced value is there at the end when it is there at the start or still to be written, no other forced
    field touches its path, and each optional field that would run through it is followed by it again. -/
private theorem survives {path : List String} {value : String} {fields : List ResolvedBodyField}
    {root : List (String × Value)}
    (alone : ∀ f ∈ fields, f.ifAbsent = false → f.segments <+: path ∨ path <+: f.segments →
      f.segments = path ∧ f.value = value)
    (restored : ∀ before f after, fields = before ++ f :: after → f.ifAbsent = true → path <+: f.segments →
      path ≠ f.segments → ∃ g ∈ after, g.ifAbsent = false ∧ g.segments = path)
    (there : (Value.object root).at? path = some (.string value) ∨
      ∃ f ∈ fields, f.ifAbsent = false ∧ f.segments = path) :
    (Value.object (fields.foldl injectField root)).at? path = some (.string value) := by
  induction fields generalizing root with
  | nil => exact there.resolve_right (by simp)
  | cons field after ih =>
    rw [List.foldl_cons]
    refine ih (fun f inside => alone f (List.mem_cons_of_mem _ inside)) ?_ ?_
    · intro before f later split
      exact restored (field :: before) f later (by rw [split, List.cons_append])
    · cases kind : field.ifAbsent with
      | false =>
        by_cases touches : field.segments <+: path ∨ path <+: field.segments
        · obtain ⟨same, sameValue⟩ := alone field List.mem_cons_self kind touches
          left
          rw [← same, injectField_forced root kind, sameValue]
        · obtain ⟨notBelow, notAbove⟩ := not_or.mp touches
          rcases there with held | ⟨f, inside, forced, at_⟩
          · left
            rw [injectField_apart root notAbove notBelow, held]
          · rcases List.mem_cons.mp inside with rfl | later
            · exact absurd (Or.inl (at_ ▸ List.prefix_rfl)) touches
            · exact Or.inr ⟨f, later, forced, at_⟩
      | true =>
        by_cases through : path <+: field.segments ∧ path ≠ field.segments
        · exact Or.inr (restored [] field after rfl kind through.1 through.2)
        · rcases there with held | ⟨f, inside, forced, at_⟩
          · left
            by_cases below : field.segments <+: path
            · rw [injectField_present root kind below (by rw [held]; rfl), held]
            · have notAbove : ¬ path <+: field.segments := by
                intro above
                refine through ⟨above, ?_⟩
                rintro rfl
                exact below List.prefix_rfl
              rw [injectField_apart root notAbove below, held]
          · rcases List.mem_cons.mp inside with rfl | later
            · rw [kind] at forced
              cases forced
            · exact Or.inr ⟨f, later, forced, at_⟩

/-- An object stays where no forced field writes at or above it. -/
private theorem object_stays {path : List String} {fields : List ResolvedBodyField}
    {root inner : List (String × Value)}
    (untouched : ∀ f ∈ fields, f.ifAbsent = false → ¬ f.segments <+: path)
    (there : (Value.object root).at? path = some (.object inner)) :
    ∃ last, (Value.object (fields.foldl injectField root)).at? path = some (.object last) := by
  induction fields generalizing root inner with
  | nil => exact ⟨inner, there⟩
  | cons field after ih =>
    have later := fun f inside => untouched f (List.mem_cons_of_mem _ inside)
    rw [List.foldl_cons]
    by_cases above : path <+: field.segments ∧ path ≠ field.segments
    · obtain ⟨made, at_⟩ := injectField_above root above.1 above.2
      exact ih later at_
    · have kept : (Value.object (injectField root field)).at? path = (Value.object root).at? path := by
        by_cases below : field.segments <+: path
        · have optional : field.ifAbsent = true := by
            by_contra forced
            exact untouched field List.mem_cons_self (Bool.not_eq_true _ ▸ forced) below
          exact injectField_present root optional below (by rw [there]; rfl)
        · refine injectField_apart root (fun is => above ⟨is, ?_⟩) below
          rintro rfl
          exact below List.prefix_rfl
      exact ih later (kept.trans there)

private theorem restored_split {forced fields : List ResolvedBodyField} (restored : Restored forced fields) :
    ∀ before f after, fields = before ++ f :: after → f.ifAbsent = true → ∀ g ∈ forced,
      g.segments <+: f.segments → g.segments ≠ f.segments →
        ∃ h ∈ after, h.ifAbsent = false ∧ h.segments = g.segments := by
  induction fields with
  | nil => simp
  | cons field rest ih =>
    obtain ⟨first, others⟩ := restored
    intro before f after split
    cases before with
    | nil =>
      obtain ⟨rfl, rfl⟩ := List.cons.inj split
      exact first
    | cons head before =>
      obtain ⟨-, tail⟩ := List.cons.inj split
      exact ih others before f after tail

/-- When every forced field is held at the end, each optional field that runs through one is followed by it
    again. -/
private theorem restored_of_held {forced fields : List ResolvedBodyField} {root : List (String × Value)}
    (agree : ∀ f ∈ forced, ∀ g ∈ fields, g.ifAbsent = false → g.segments <+: f.segments →
      g.segments = f.segments)
    (held : ∀ f ∈ forced, f.HeldBy (.object (fields.foldl injectField root))) : Restored forced fields := by
  induction fields generalizing root with
  | nil => trivial
  | cons field after ih =>
    refine ⟨fun _ f inside prefixed strict => ?_, ih ?_ held⟩
    · by_contra gone
      obtain ⟨made, at_⟩ := injectField_above root prefixed strict
      have untouched : ∀ g ∈ after, g.ifAbsent = false → ¬ g.segments <+: f.segments := by
        intro g later isForced above
        exact gone ⟨g, later, isForced, agree f inside g (List.mem_cons_of_mem _ later) isForced above⟩
      obtain ⟨last, still⟩ := object_stays untouched at_
      have text := held f inside
      rw [ResolvedBodyField.HeldBy, List.foldl_cons, still] at text
      simp at text
    · intro f inside g later
      exact agree f inside g (List.mem_cons_of_mem _ later)

/-- After the injection a body holds every forced field exactly when the fields are consistent, whatever it
    held before. -/
theorem injected_iff_consistent (root : List (String × Value)) (fields : List ResolvedBodyField) :
    (∀ f ∈ forcedOf fields, f.HeldBy (.object (fields.foldl injectField root))) ↔ Consistent fields := by
  constructor
  · intro held
    have agree : Agree (forcedOf fields) := by
      intro f first g second ⟨more, together⟩
      have heldFirst := held f first
      have heldSecond := held g second
      rw [ResolvedBodyField.HeldBy] at heldFirst heldSecond
      by_cases same : more = []
      · subst same
        rw [List.append_nil] at together
        rw [together, heldSecond] at heldFirst
        simp only [Option.some.injEq, Json.Value.string.injEq] at heldFirst
        exact ⟨together, heldFirst.symm⟩
      · rw [← together, Json.Value.at?_below_string heldFirst same] at heldSecond
        cases heldSecond
    refine ⟨agree, restored_of_held ?_ held⟩
    intro f inside g member isForced above
    exact (agree g (mem_forcedOf.mpr ⟨member, isForced⟩) f inside above).1
  · rintro ⟨agree, restored⟩ f inside
    obtain ⟨member, isForced⟩ := mem_forcedOf.mp inside
    refine survives ?_ ?_ (Or.inr ⟨f, member, isForced, rfl⟩)
    · intro g other otherForced touches
      have both := mem_forcedOf.mpr ⟨other, otherForced⟩
      rcases touches with above | below
      · exact agree g both f inside above
      · obtain ⟨same, value⟩ := agree f inside g both below
        exact ⟨same.symm, value.symm⟩
    · intro before g after split optional through strict
      exact restored_split restored before g after split optional f inside through strict

end SmallGateway
