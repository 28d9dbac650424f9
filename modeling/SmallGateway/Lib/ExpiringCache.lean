import Mathlib.Data.List.Basic
import Std.Data.TreeMap.Lemmas

/-!
A cache of values that expire, shared by callers that look up, fetch and store in any order. The log of what has been
stored, the newest first, says all about it: a lookup finds the newest value of its key while that lasts (`find?`), and
a table that is written with every store holds the newest value of every key (`Holds`).
-/

namespace ExpiringCache

variable {K V : Type*} [BEq K]

section

variable {expires : V → Nat} {margin now : Nat} {log : List (K × V)} {key : K} {value : V}

/-- What a lookup finds: the newest value of the key, when it lasts beyond the margin. -/
def find? (expires : V → Nat) (margin : Nat) (log : List (K × V)) (key : K) (now : Nat) : Option V :=
  (log.lookup key).filter fun value => now + margin < expires value

theorem find?_eq_some_iff :
    find? expires margin log key now = some value ↔ log.lookup key = some value ∧ now + margin < expires value := by
  rw [find?, Option.filter_eq_some_iff, decide_eq_true_iff]

theorem mem_of_lookup [LawfulBEq K] (found : log.lookup key = some value) : (key, value) ∈ log := by
  obtain ⟨before, after, rfl, -⟩ := List.lookup_eq_some_iff.mp found
  exact List.mem_append_right _ List.mem_cons_self

end

/-! ### Tables -/

variable {cmp : K → K → Ordering} {table : Std.TreeMap K V cmp} {log : List (K × V)}

/-- The table holds what was stored last under each key. -/
def Holds (table : Std.TreeMap K V cmp) (log : List (K × V)) : Prop := ∀ key : K, table[key]? = log.lookup key

/-- A lookup in the table. -/
theorem Holds.find? (holds : Holds table log) (expires : V → Nat) (margin : Nat) (key : K) (now : Nat) :
    (table[key]?.filter fun value => now + margin < expires value) =
      ExpiringCache.find? expires margin log key now := by
  rw [holds key]
  rfl

variable [Std.TransCmp cmp]

theorem holds_empty : Holds (∅ : Std.TreeMap K V cmp) [] := fun _ => Std.TreeMap.getElem?_emptyc

/-- A store goes to the front of the log. -/
theorem Holds.insert [LawfulBEq K] [Std.LawfulEqCmp cmp] (holds : Holds table log) (key : K) (value : V) :
    Holds (table.insert key value) ((key, value) :: log) := by
  intro other
  rw [Std.TreeMap.getElem?_insert, List.lookup_cons, holds other]
  by_cases same : key = other
  · subst same
    rw [if_pos (Std.LawfulEqCmp.compare_eq_iff_eq.mpr rfl), beq_self_eq_true]
  · have apart : (other == key) = false := beq_eq_false_iff_ne.mpr fun equal => same equal.symm
    rw [if_neg fun equal => same (Std.LawfulEqCmp.compare_eq_iff_eq.mp equal), apart]

end ExpiringCache
