import Mathlib.Data.List.Basic

/-!
Headers: names that may stand more than once, each time with a value, changed by writes that remove a name or put one
value in the place of those it has. After a sequence of writes a name has what the last write to it leaves
(`values_writeAll`). A write may be refused, and the sequence with it.
-/

namespace Headers

variable {Name Value : Type*} [DecidableEq Name]

/-- The values of a name, in order. -/
def values (name : Name) (headers : List (Name × Value)) : List Value :=
  (headers.filter fun header => header.1 = name).map (·.2)

def remove (name : Name) (headers : List (Name × Value)) : List (Name × Value) :=
  headers.filter fun header => header.1 ≠ name

def insert (name : Name) (value : Value) (headers : List (Name × Value)) : List (Name × Value) :=
  remove name headers ++ [(name, value)]

inductive Write (Name Value : Type*) where
  | remove (name : Name)
  | insert (name : Name) (value : Value)

namespace Write

def name : Write Name Value → Name
  | remove name => name
  | insert name _ => name

/-- The values that the name of the write has after it. -/
def leaves : Write Name Value → List Value
  | remove _ => []
  | insert _ value => [value]

/-- One write. Not every name and value can stand in a header. -/
def apply (accepts : Name → Value → Bool) (headers : List (Name × Value)) :
    Write Name Value → Option (List (Name × Value))
  | remove name => some (Headers.remove name headers)
  | insert name value => if accepts name value then some (Headers.insert name value headers) else none

end Write

def writeAll (accepts : Name → Value → Bool) (headers : List (Name × Value)) (writes : List (Write Name Value)) :
    Option (List (Name × Value)) := writes.foldlM (Write.apply accepts) headers

/-- What the last write to a name leaves there, nothing when none is to it. -/
def lastWrite (name : Name) : List (Write Name Value) → Option (List Value)
  | [] => none
  | write :: rest => (lastWrite name rest).or (if write.name = name then some write.leaves else none)

variable {accepts : Name → Value → Bool} {headers after : List (Name × Value)} {writes : List (Write Name Value)}
  {name : Name}

theorem values_remove (other : Name) :
    values name (remove other headers) = if other = name then [] else values name headers := by
  rw [values, remove, List.filter_filter]
  by_cases same : other = name
  · subst same
    simp
  · rw [if_neg same, values]
    congr 1
    refine List.filter_congr fun header _ => ?_
    by_cases here : header.1 = name <;> simp [here, Ne.symm same]

theorem values_apply {write : Write Name Value} (done : write.apply accepts headers = some after) :
    values name after = if write.name = name then write.leaves else values name headers := by
  cases write with
  | remove other =>
    obtain rfl : remove other headers = after := Option.some.inj done
    exact values_remove other
  | insert other value =>
    obtain ⟨-, made⟩ := Option.ite_none_right_eq_some.mp done
    obtain rfl : insert other value headers = after := Option.some.inj made
    rw [insert, values, List.filter_append, List.map_append, ← values, values_remove]
    by_cases same : other = name <;> simp [Write.name, Write.leaves, same]

/-- A name has what the last write to it leaves. -/
theorem values_writeAll (done : writeAll accepts headers writes = some after) :
    values name after = (lastWrite name writes).getD (values name headers) := by
  induction writes generalizing headers with
  | nil =>
    obtain rfl : headers = after := Option.some.inj done
    rfl
  | cons write rest ih =>
    obtain ⟨next, first, others⟩ := Option.bind_eq_some_iff.mp done
    rw [ih others, values_apply first, lastWrite]
    cases lastWrite name rest with
    | some held => rfl
    | none => by_cases same : write.name = name <;> simp [same]

/-- What is put into the headers has been accepted. -/
theorem accepts_of_writeAll (done : writeAll accepts headers writes = some after) {value : Value}
    (listed : Write.insert name value ∈ writes) : accepts name value = true := by
  induction writes generalizing headers with
  | nil => cases listed
  | cons write rest ih =>
    obtain ⟨next, first, others⟩ := Option.bind_eq_some_iff.mp done
    rcases List.mem_cons.mp listed with rfl | later
    · exact (Option.ite_none_right_eq_some.mp first).1
    · exact ih others later

theorem lastWrite_append (first second : List (Write Name Value)) :
    lastWrite name (first ++ second) = (lastWrite name second).or (lastWrite name first) := by
  induction first with
  | nil => simp [lastWrite]
  | cons write rest ih => rw [List.cons_append, lastWrite, ih, lastWrite, Option.or_assoc]

/-- Writes to other names leave a name alone. -/
theorem lastWrite_eq_none (others : ∀ write ∈ writes, write.name ≠ name) : lastWrite name writes = none := by
  induction writes with
  | nil => rfl
  | cons write rest ih =>
    rw [lastWrite, ih fun other inside => others other (List.mem_cons_of_mem _ inside),
      if_neg (others write List.mem_cons_self)]
    rfl

/-- Where every write to a name leaves the same, that is what the last one leaves. -/
theorem lastWrite_eq_some {held : List Value} (some_ : ∃ write ∈ writes, write.name = name)
    (same : ∀ write ∈ writes, write.name = name → write.leaves = held) : lastWrite name writes = some held := by
  induction writes with
  | nil => simp at some_
  | cons write rest ih =>
    rw [lastWrite]
    by_cases later : ∃ write ∈ rest, write.name = name
    · rw [ih later fun other inside => same other (List.mem_cons_of_mem _ inside)]
      rfl
    · push Not at later
      obtain ⟨found, inside, named⟩ := some_
      rcases List.mem_cons.mp inside with rfl | other
      · rw [lastWrite_eq_none later, if_pos named, same found List.mem_cons_self named]
        rfl
      · exact absurd named (later found other)

end Headers
