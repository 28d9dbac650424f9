import Mathlib.Data.Prod.Lex
import SmallGateway.Lib.Sorting

/-!
Choosing the best element of a list by a key. Of several greatest elements the choice takes the last one, or, when the
place in the list is part of the key, the first one (`chosen_first`). Which element comes first among the greatest ones
does not depend on the order of elements of different keys (`First.eq_of_withKey`).
-/

namespace Choice

open Sorting (withKey withKey_cons mem_of_withKey)

variable {α κ : Type*} [LinearOrder κ] {key : α → κ} {xs ys : List α} {best : α}

/-- The last of the greatest elements. -/
def maxByKey (key : α → κ) : List α → Option α
  | [] => none
  | x :: rest =>
    match maxByKey key rest with
    | none => some x
    | some best => if key best < key x then some x else some best

def Last (key : α → κ) (xs : List α) (best : α) : Prop :=
  ∃ before after, xs = before ++ best :: after ∧ (∀ x ∈ before, key x ≤ key best) ∧ ∀ x ∈ after, key x < key best

def First (key : α → κ) (xs : List α) (best : α) : Prop :=
  ∃ before after, xs = before ++ best :: after ∧ (∀ x ∈ before, key x < key best) ∧ ∀ x ∈ after, key x ≤ key best

theorem maxByKey_eq_none : maxByKey key xs = none ↔ xs = [] := by
  cases xs with
  | nil => simp [maxByKey]
  | cons x rest =>
    simp only [maxByKey, reduceCtorEq, iff_false]
    cases maxByKey key rest with
    | none => simp
    | some best => by_cases greater : key best < key x <;> simp [greater]

theorem maxByKey_last (chosen : maxByKey key xs = some best) : Last key xs best := by
  induction xs generalizing best with
  | nil => simp [maxByKey] at chosen
  | cons x rest ih =>
    cases others : maxByKey key rest with
    | none =>
      obtain rfl := maxByKey_eq_none.mp others
      obtain rfl : x = best := by simpa [maxByKey] using chosen
      exact ⟨[], [], rfl, by simp, by simp⟩
    | some held =>
      obtain ⟨before, after, rfl, upTo, below⟩ := ih others
      by_cases greater : key held < key x
      · obtain rfl : x = best := by simpa [maxByKey, others, greater] using chosen
        refine ⟨[], _, rfl, by simp, fun y inside => ?_⟩
        rcases List.mem_append.mp inside with early | late
        · exact (upTo y early).trans_lt greater
        · rcases List.mem_cons.mp late with rfl | late
          · exact greater
          · exact (below y late).trans greater
      · obtain rfl : held = best := by simpa [maxByKey, others, greater] using chosen
        exact ⟨x :: before, after, rfl, List.forall_mem_cons.mpr ⟨not_lt.mp greater, upTo⟩, below⟩

theorem First.mem (first : First key xs best) : best ∈ xs := by
  obtain ⟨before, after, rfl, -, -⟩ := first
  simp

theorem First.le (first : First key xs best) : ∀ x ∈ xs, key x ≤ key best := by
  obtain ⟨before, after, rfl, below, upTo⟩ := first
  intro x inside
  rcases List.mem_append.mp inside with early | late
  · exact (below x early).le
  · rcases List.mem_cons.mp late with rfl | late
    · exact le_rfl
    · exact upTo x late

/-- The first of the greatest elements is the first one of its key. -/
theorem First.head_withKey (first : First key xs best) : (withKey key (key best) xs).head? = some best := by
  obtain ⟨before, after, rfl, below, -⟩ := first
  induction before with
  | nil => simp [withKey]
  | cons x before ih =>
    obtain ⟨less, below⟩ := List.forall_mem_cons.mp below
    rw [List.cons_append, withKey_cons, if_neg less.ne]
    exact ih below

/-- Where two lists agree on the elements of every key, they have one choice. -/
theorem First.eq_of_withKey {other : α} (agree : ∀ k, withKey key k xs = withKey key k ys)
    (first : First key xs best) (firstToo : First key ys other) : best = other := by
  have keys : key best = key other :=
    le_antisymm (firstToo.le best (mem_of_withKey agree first.mem))
      (first.le other (mem_of_withKey (fun k => (agree k).symm) firstToo.mem))
  have heads := first.head_withKey
  rw [agree, keys, firstToo.head_withKey] at heads
  exact (Option.some.inj heads).symm

/-- The first of the greatest elements that satisfy a predicate, in the whole list. -/
theorem First.of_filter {p : α → Bool} (first : First key (xs.filter p) best) :
    ∃ before after, xs = before ++ best :: after ∧ ∀ x ∈ before, p x = true → key x < key best := by
  obtain ⟨before, after, parts, below, -⟩ := first
  obtain ⟨early, rest, rfl, rfl, others⟩ := List.filter_eq_append_iff.mp parts
  obtain ⟨skipped, late, rfl, none, -, -⟩ := List.filter_eq_cons_iff.mp others
  refine ⟨early ++ skipped, late, by simp, fun x inside holds => ?_⟩
  rcases List.mem_append.mp inside with among | among
  · exact below x (List.mem_filter.mpr ⟨among, holds⟩)
  · exact absurd holds (none x among)

theorem First.map {β : Type*} (key : α → κ) (f : β → α) {entries : List β} {entry : β}
    (first : First (fun x => key (f x)) entries entry) : First key (entries.map f) (f entry) := by
  obtain ⟨before, after, rfl, below, upTo⟩ := first
  exact ⟨before.map f, after.map f, by simp, List.forall_mem_map.mpr below, List.forall_mem_map.mpr upTo⟩

theorem withKey_filter (p : α → Bool) (k : κ) : withKey key k (xs.filter p) = (withKey key k xs).filter p := by
  rw [withKey, withKey, List.filter_filter, List.filter_filter]
  simp only [Bool.and_comm]

/-! ### Choices by the place in the list -/

/-- A key and then the place, where an earlier place is the greater one. -/
def placedKey (key : α → κ) (entry : α × Nat) : κ ×ₗ ℕᵒᵈ := toLex (key entry.1, OrderDual.toDual entry.2)

theorem placedKey_lt {x y : α × Nat} (placed : placedKey key x < placedKey key y) (later : x.2 < y.2) :
    key x.1 < key y.1 := by
  rcases Prod.Lex.toLex_lt_toLex.mp placed with less | ⟨-, earlier⟩
  · exact less
  · exact absurd (OrderDual.toDual_lt_toDual.mp earlier) (by omega)

theorem placedKey_le {x y : α × Nat} (placed : placedKey key x ≤ placedKey key y) : key x.1 ≤ key y.1 := by
  rcases Prod.Lex.toLex_le_toLex.mp placed with less | ⟨same, -⟩
  · exact less.le
  · exact same.le

/-- The choice by a key and the place is the first of the greatest elements. -/
theorem chosen_first {entries : List (α × Nat)} (ordered : entries.Pairwise fun x y => x.2 < y.2) {entry : α × Nat}
    (chosen : maxByKey (placedKey key) entries = some entry) : First key (entries.map (·.1)) entry.1 := by
  obtain ⟨before, after, rfl, upTo, below⟩ := maxByKey_last chosen
  rw [List.pairwise_append] at ordered
  refine ⟨before.map (·.1), after.map (·.1), by simp, ?_, ?_⟩
  · intro x listed
    obtain ⟨other, early, rfl⟩ := List.mem_map.mp listed
    have earlier := ordered.2.2 other early entry List.mem_cons_self
    refine placedKey_lt (lt_of_le_of_ne (upTo other early) fun same => ?_) earlier
    have places := congrArg (fun k => OrderDual.ofDual (ofLex k).2) same
    exact absurd places earlier.ne
  · intro x listed
    obtain ⟨other, late, rfl⟩ := List.mem_map.mp listed
    exact placedKey_le (below other late).le

end Choice
