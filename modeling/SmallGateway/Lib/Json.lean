import Mathlib.Data.Rat.Defs
import Mathlib.Data.List.Infix

/-!
JSON values with ordered objects: reading a field or an element where absence reads as null, reading and
writing at a path of object fields, and what a write at one path leaves readable at another.
-/

namespace Json

/-- A JSON number: an unsigned or a negative integer, or any other number. -/
inductive Number where
  | posInt (value : Nat)
  | negInt (value : Int)
  | float (value : ℚ)
  deriving DecidableEq

/-- A JSON value. The fields of an object are kept in the order of their keys. -/
inductive Value where
  | null
  | bool (value : Bool)
  | number (value : Number)
  | string (value : String)
  | array (items : List Value)
  | object (fields : List (String × Value))

namespace Value

/-- The value of a field, or nothing when the value is no object or has no such field. -/
def get? : Value → String → Option Value
  | object fields, key => fields.lookup key
  | _, _ => none

/-- The value of a field, null when there is none. -/
def get (value : Value) (key : String) : Value := (value.get? key).getD null

def asStr : Value → Option String
  | string value => some value
  | _ => none

def asU64 : Value → Option Nat
  | number (.posInt value) => some value
  | _ => none

def asArray : Value → List Value
  | array items => items
  | _ => []

def isObject : Value → Bool
  | object _ => true
  | _ => false

/-- The value at a position of an array, null when there is none. -/
def item (value : Value) (index : Nat) : Value := value.asArray.getD index null

/-- The value at a path of object fields. -/
def at? : Value → List String → Option Value
  | value, [] => some value
  | value, key :: path => (value.get? key).bind fun inner => inner.at? path

end Value

/-- The fields of an object, none when the value is no object. -/
def Value.fields : Value → List (String × Value)
  | .object fields => fields
  | _ => []

/-- Sets a field of an object, keeping the order of the keys. -/
def insertField : List (String × Value) → String → Value → List (String × Value)
  | [], key, value => [(key, value)]
  | (first, held) :: rest, key, value =>
    if key = first then (key, value) :: rest
    else if key < first then (key, value) :: (first, held) :: rest
    else (first, held) :: insertField rest key value

/-- The fields of the object in a field, none when there is no object. -/
def innerFields (fields : List (String × Value)) (key : String) : List (String × Value) :=
  ((fields.lookup key).map Value.fields).getD []

/-- Writes a value at a path of object fields. The objects on the way are created, also in place of what is
    no object; with `ifAbsent` a field that is already there keeps its value. -/
def writeAt (value : Value) (ifAbsent : Bool) :
    List (String × Value) → String → List String → List (String × Value)
  | fields, last, [] =>
    if ifAbsent && (fields.lookup last).isSome then fields else insertField fields last value
  | fields, key, next :: path =>
    insertField fields key
      (.object (writeAt value ifAbsent (innerFields fields key) next path))

private theorem lookup_field (first key : String) (held : Value) (rest : List (String × Value)) :
    ((first, held) :: rest).lookup key = if key = first then some held else rest.lookup key := by
  by_cases same : key = first
  · simp [same]
  · simp [List.lookup_cons, same, beq_false_of_ne same]

theorem lookup_insertField (fields : List (String × Value)) (key other : String) (value : Value) :
    (insertField fields key value).lookup other =
      if other = key then some value else fields.lookup other := by
  induction fields with
  | nil =>
    rw [insertField, lookup_field]
  | cons field rest ih =>
    obtain ⟨first, held⟩ := field
    rw [insertField]
    by_cases found : key = first
    · subst found
      simp only [if_true, lookup_field]
      by_cases same : other = key
      · simp [same]
      · simp [same]
    · by_cases before : key < first
      · simp only [found, before, if_false, if_true, lookup_field]
      · simp only [found, before, if_false, lookup_field, ih]
        by_cases here : other = first
        · subst here
          simp [Ne.symm found]
        · simp [here]

namespace Value

theorem at?_object (fields : List (String × Value)) (key : String) (path : List String) :
    (object fields).at? (key :: path) = (fields.lookup key).bind fun inner => inner.at? path := rfl

/-- A path through a value that is no object leads nowhere, so a path below it goes through its fields. -/
theorem at?_fields (value : Value) (key : String) (path : List String) :
    value.at? (key :: path) = (object value.fields).at? (key :: path) := by
  cases value <;> rfl

theorem at?_append (value : Value) (first second : List String) :
    value.at? (first ++ second) = (value.at? first).bind fun inner => inner.at? second := by
  induction first generalizing value with
  | nil => rfl
  | cons key path ih =>
    rw [List.cons_append, at?, at?]
    cases value.get? key with
    | none => rfl
    | some inner => exact ih inner

/-- Below a text there is nothing. -/
theorem at?_below_string {value : Value} {path more : List String} {text : String}
    (held : value.at? path = some (string text)) (below : more ≠ []) : value.at? (path ++ more) = none := by
  rw [at?_append, held]
  cases more with
  | nil => exact absurd rfl below
  | cons key more => rfl

end Value

section

variable (value : Value) (ifAbsent : Bool) (fields : List (String × Value)) (key : String)
  (path : List String)

/-- What a write leaves readable below one of its own fields. -/
private theorem at?_writeAt_cons (next : String) (rest other : List String) :
    (Value.object (writeAt value ifAbsent fields key (next :: rest))).at? (key :: other) =
      (Value.object (writeAt value ifAbsent (innerFields fields key) next rest)).at?
        other := by
  rw [Value.at?_object, writeAt, lookup_insertField, if_pos rfl]
  rfl

private theorem at?_writeAt_other {other : String} (different : other ≠ key) (rest : List String) :
    (Value.object (writeAt value ifAbsent fields key path)).at? (other :: rest) =
      (Value.object fields).at? (other :: rest) := by
  rw [Value.at?_object, Value.at?_object]
  cases path with
  | nil =>
    rw [writeAt]
    split
    · rfl
    · rw [lookup_insertField, if_neg different]
  | cons next path => rw [writeAt, lookup_insertField, if_neg different]

/-- A write that does not ask for absence is readable at its path. -/
theorem at?_writeAt_same :
    (Value.object (writeAt value false fields key path)).at? (key :: path) = some value := by
  induction path generalizing fields key with
  | nil =>
    rw [Value.at?_object, writeAt, Bool.false_and, if_neg (by decide), lookup_insertField, if_pos rfl]
    rfl
  | cons next path ih =>
    rw [at?_writeAt_cons]
    exact ih _ next

/-- Above its path a write leaves an object. -/
theorem at?_writeAt_above {above : List String} (prefixed : above <+: key :: path)
    (strict : above ≠ key :: path) :
    ∃ inner, (Value.object (writeAt value ifAbsent fields key path)).at? above = some (.object inner) := by
  induction path generalizing fields key above with
  | nil =>
    cases above with
    | nil => exact ⟨_, rfl⟩
    | cons first above =>
      obtain ⟨rfl, rest⟩ := List.cons_prefix_cons.mp prefixed
      rw [List.prefix_nil.mp rest] at strict
      exact absurd rfl strict
  | cons next path ih =>
    cases above with
    | nil => exact ⟨_, rfl⟩
    | cons first above =>
      obtain ⟨rfl, rest⟩ := List.cons_prefix_cons.mp prefixed
      rw [at?_writeAt_cons]
      exact ih _ next rest fun same => strict (same ▸ rfl)

/-- A write changes nothing at a path that is neither above nor below its own. -/
theorem at?_writeAt_apart {other : List String} (notAbove : ¬ other <+: key :: path)
    (notBelow : ¬ key :: path <+: other) :
    (Value.object (writeAt value ifAbsent fields key path)).at? other = (Value.object fields).at? other := by
  induction path generalizing fields key other with
  | nil =>
    cases other with
    | nil => exact absurd List.nil_prefix notAbove
    | cons first other =>
      refine at?_writeAt_other value ifAbsent fields key [] ?_ other
      rintro rfl
      exact notBelow (List.cons_prefix_cons.mpr ⟨rfl, List.nil_prefix⟩)
  | cons next path ih =>
    cases other with
    | nil => exact absurd List.nil_prefix notAbove
    | cons first other =>
      by_cases same : first = key
      · subst same
        have above : ¬ other <+: next :: path := fun is => notAbove (List.cons_prefix_cons.mpr ⟨rfl, is⟩)
        have below : ¬ next :: path <+: other := fun is => notBelow (List.cons_prefix_cons.mpr ⟨rfl, is⟩)
        rw [at?_writeAt_cons, ih _ next above below, Value.at?_object]
        cases other with
        | nil => exact absurd List.nil_prefix above
        | cons second other =>
          rw [innerFields]
          cases fields.lookup first with
          | none => rfl
          | some inner => exact (inner.at?_fields second other).symm
      · exact at?_writeAt_other value ifAbsent fields key (next :: path) same other

/-- A write that asks for absence changes nothing at or below its path when something is there. -/
theorem at?_writeAt_present {other : List String} (below : key :: path <+: other)
    (present : ((Value.object fields).at? other).isSome = true) :
    (Value.object (writeAt value true fields key path)).at? other = (Value.object fields).at? other := by
  induction path generalizing fields key other with
  | nil =>
    obtain ⟨more, rfl⟩ := below
    have held : (fields.lookup key).isSome = true := by
      rw [List.cons_append, Value.at?_object] at present
      cases found : fields.lookup key with
      | none => simp [found] at present
      | some inner => rfl
    rw [writeAt, Bool.true_and, if_pos held]
  | cons next path ih =>
    obtain ⟨more, rfl⟩ := below
    rw [List.cons_append, Value.at?_object] at present
    rw [List.cons_append, at?_writeAt_cons, Value.at?_object]
    cases found : fields.lookup key with
    | none => simp [found] at present
    | some inner =>
      rw [found, Option.bind_some, List.cons_append, Value.at?_fields] at present
      have kept := ih inner.fields next (List.prefix_append (next :: path) more) present
      have inside : innerFields fields key = inner.fields := by simp [innerFields, found]
      rw [inside, kept, Option.bind_some, List.cons_append, ← Value.at?_fields]

/-- A write that asks for absence is readable at its path when nothing is there. -/
theorem at?_writeAt_absent (absent : (Value.object fields).at? (key :: path) = none) :
    (Value.object (writeAt value true fields key path)).at? (key :: path) = some value := by
  induction path generalizing fields key with
  | nil =>
    have gone : (fields.lookup key).isSome = false := by
      rw [Value.at?_object] at absent
      cases found : fields.lookup key with
      | none => rfl
      | some inner => simp [found, Value.at?] at absent
    rw [writeAt, gone, Bool.and_false, if_neg (by decide), Value.at?_object, lookup_insertField, if_pos rfl]
    rfl
  | cons next path ih =>
    rw [at?_writeAt_cons]
    refine ih _ next ?_
    rw [Value.at?_object] at absent
    cases found : fields.lookup key with
    | none => simp [innerFields, found, Value.at?_object]
    | some inner =>
      rw [found, Option.bind_some, Value.at?_fields] at absent
      simpa [innerFields, found] using absent

end

end Json
