import Mathlib.Data.List.Sort
import Mathlib.Order.Basic

/-!
Sorting a list by the keys of its elements, where elements with one key keep their order. A sorted list is what the
elements of each key are, in their order: two lists are sorted to the same list exactly when they agree on the elements
of every key (`sortBy_eq_iff`).
-/

namespace Sorting

variable {α β κ : Type*} [LinearOrder κ]

def sortBy (key : α → κ) (xs : List α) : List α := xs.insertionSort fun a b => key a ≤ key b

/-- The elements of one key, in their order. -/
def withKey (key : α → κ) (k : κ) (xs : List α) : List α := xs.filter fun x => key x = k

variable {key : α → κ} {k : κ} {x : α} {xs ys : List α}

theorem withKey_cons : withKey key k (x :: xs) = if key x = k then x :: withKey key k xs else withKey key k xs := by
  simp [withKey, List.filter_cons]

theorem mem_withKey : x ∈ withKey key k xs ↔ x ∈ xs ∧ key x = k := by
  simp [withKey]

theorem withKey_tail (agree : withKey key k (x :: xs) = withKey key k (x :: ys)) :
    withKey key k xs = withKey key k ys := by
  rw [withKey_cons, withKey_cons] at agree
  by_cases own : key x = k
  · rw [if_pos own, if_pos own] at agree
    exact (List.cons.inj agree).2
  · rwa [if_neg own, if_neg own] at agree

/-- Two neighbours of different keys can change places. -/
theorem withKey_swap {y : α} (different : key x ≠ key y) (before after : List α) (k : κ) :
    withKey key k (before ++ x :: y :: after) = withKey key k (before ++ y :: x :: after) := by
  rw [withKey, withKey, List.filter_append, List.filter_append]
  refine congrArg _ ?_
  change withKey key k (x :: y :: after) = withKey key k (y :: x :: after)
  rw [withKey_cons, withKey_cons, withKey_cons, withKey_cons]
  by_cases own : key x = k
  · have other : key y ≠ k := fun same => different (own.trans same.symm)
    rw [if_pos own, if_neg other, if_neg other, if_pos own]
  · rw [if_neg own, if_neg own]

theorem sortBy_perm (key : α → κ) (xs : List α) : (sortBy key xs).Perm xs := List.perm_insertionSort _ xs

theorem sortBy_sorted (key : α → κ) (xs : List α) : (sortBy key xs).Pairwise fun a b => key a ≤ key b := by
  have total : Std.Total fun a b : α => key a ≤ key b := ⟨fun a b => le_total (key a) (key b)⟩
  have trans : IsTrans α fun a b => key a ≤ key b := ⟨fun _ _ _ => le_trans⟩
  exact List.pairwise_insertionSort _ xs

/-- A change of the elements that leaves their keys can be made before or after. -/
theorem map_sortBy {keyToo : β → κ} (f : α → β) (same : ∀ x, keyToo (f x) = key x) (xs : List α) :
    (sortBy key xs).map f = sortBy keyToo (xs.map f) :=
  List.map_insertionSort _ _ f xs fun a _ b _ => by rw [same, same]

theorem withKey_orderedInsert :
    withKey key k (xs.orderedInsert (fun a b => key a ≤ key b) x) = withKey key k (x :: xs) := by
  induction xs with
  | nil => rfl
  | cons first rest ih =>
    rw [List.orderedInsert_cons]
    split
    next => rfl
    next behind =>
      -- The element goes behind one of a smaller key, so not both are of the key that is looked at.
      rw [withKey_cons, ih, withKey_cons, withKey_cons, withKey_cons]
      have different (own : key x = k) : key first ≠ k := fun other => behind (by rw [own, other])
      by_cases own : key x = k
      · rw [if_neg (different own), if_pos own, if_pos own, if_neg (different own)]
      · rw [if_neg own, if_neg own]

/-- Sorting keeps the order of the elements of a key. -/
theorem withKey_sortBy : withKey key k (sortBy key xs) = withKey key k xs := by
  induction xs with
  | nil => rfl
  | cons x xs ih =>
    have inserted : sortBy key (x :: xs) = (sortBy key xs).orderedInsert (fun a b => key a ≤ key b) x := rfl
    rw [inserted, withKey_orderedInsert, withKey_cons, ih, withKey_cons]

/-- Two lists that agree on the elements of every key have the same elements. -/
theorem mem_of_withKey (agree : ∀ k, withKey key k xs = withKey key k ys) (inside : x ∈ xs) : x ∈ ys :=
  (mem_withKey.mp (agree (key x) ▸ mem_withKey.mpr ⟨inside, rfl⟩)).1

/-- Two sorted lists that agree on the elements of every key are one. -/
theorem eq_of_withKey (sorted : xs.Pairwise fun a b => key a ≤ key b)
    (sortedToo : ys.Pairwise fun a b => key a ≤ key b) (agree : ∀ k, withKey key k xs = withKey key k ys) :
    xs = ys := by
  induction xs generalizing ys with
  | nil =>
    cases ys with
    | nil => rfl
    | cons y ys => cases mem_of_withKey (fun k => (agree k).symm) (List.mem_cons_self (a := y))
  | cons x xs ih =>
    cases ys with
    | nil => cases mem_of_withKey agree (List.mem_cons_self (a := x))
    | cons y ys =>
      obtain ⟨below, rest⟩ := List.pairwise_cons.mp sorted
      obtain ⟨belowToo, restToo⟩ := List.pairwise_cons.mp sortedToo
      have inside : y ∈ x :: xs := mem_of_withKey (fun k => (agree k).symm) List.mem_cons_self
      have keys : key x = key y := by
        refine le_antisymm ?_ ?_
        · rcases List.mem_cons.mp inside with rfl | later
          · exact le_rfl
          · exact below y later
        · rcases List.mem_cons.mp (mem_of_withKey agree (List.mem_cons_self (a := x))) with rfl | later
          · exact le_rfl
          · exact belowToo x later
      have heads := agree (key x)
      rw [withKey_cons, withKey_cons, if_pos rfl, if_pos keys.symm, List.cons.injEq] at heads
      obtain ⟨rfl, -⟩ := heads
      exact congrArg (x :: ·) (ih rest restToo fun k => withKey_tail (agree k))

/-- Two lists are sorted to one list exactly when they agree on the elements of every key. -/
theorem sortBy_eq_iff : sortBy key xs = sortBy key ys ↔ ∀ k, withKey key k xs = withKey key k ys := by
  constructor
  · intro same k
    rw [← withKey_sortBy, same, withKey_sortBy]
  · intro agree
    refine eq_of_withKey (sortBy_sorted key xs) (sortBy_sorted key ys) fun k => ?_
    rw [withKey_sortBy, withKey_sortBy, agree]

/-- Two lists with the same keys in the same order that are sorted to one list are one. -/
theorem eq_of_sortBy (keys : xs.map key = ys.map key) (same : sortBy key xs = sortBy key ys) : xs = ys := by
  have agree := sortBy_eq_iff.mp same
  clear same
  induction xs generalizing ys with
  | nil => exact (List.map_eq_nil_iff.mp keys.symm).symm
  | cons x xs ih =>
    cases ys with
    | nil => cases keys
    | cons y ys =>
      rw [List.map_cons, List.map_cons, List.cons.injEq] at keys
      obtain ⟨heads, rest⟩ := keys
      have first := agree (key x)
      rw [withKey_cons, withKey_cons, if_pos rfl, if_pos heads.symm, List.cons.injEq] at first
      obtain ⟨rfl, -⟩ := first
      exact congrArg (x :: ·) (ih rest fun k => withKey_tail (agree k))

/-- Where every element has a key of its own, the order of the elements does not count. -/
theorem sortBy_eq_of_perm (alone : ∀ a ∈ xs, ∀ b ∈ xs, key a = key b → a = b) (perm : xs.Perm ys) :
    sortBy key xs = sortBy key ys := by
  refine List.Perm.eq_of_pairwise ?_ (sortBy_sorted key xs) (sortBy_sorted key ys)
    ((sortBy_perm key xs).trans (perm.trans (sortBy_perm key ys).symm))
  intro a b first second le ge
  have inside := (sortBy_perm key xs).mem_iff.mp first
  have insideToo := perm.mem_iff.mpr ((sortBy_perm key ys).mem_iff.mp second)
  exact alone a inside b insideToo (le_antisymm le ge)

theorem withKey_eq_of_perm (distinct : (xs.map key).Nodup) (perm : xs.Perm ys) (k : κ) :
    withKey key k xs = withKey key k ys :=
  sortBy_eq_iff.mp (sortBy_eq_of_perm (fun _ inside _ insideToo same =>
    List.inj_on_of_nodup_map distinct inside insideToo same) perm) k

section

variable {γ δ : Type*} [BEq γ] [LawfulBEq γ] (key : γ → κ) (es : List (γ × δ)) (name : γ)

/-- What stands under a name stands under it among the entries of its key. -/
theorem lookup_withKey : (withKey (fun e => key e.1) (key name) es).lookup name = es.lookup name := by
  induction es with
  | nil => rfl
  | cons e es ih =>
    rw [withKey_cons]
    by_cases same : name = e.1
    · rw [if_pos (congrArg key same.symm), List.lookup_cons, List.lookup_cons, ih]
    · have other : (name == e.1) = false := beq_eq_false_iff_ne.mpr same
      rw [List.lookup_cons, other, ← ih]
      split
      · rw [List.lookup_cons, other]
      · rfl

/-- Sorting by something of the names leaves what stands under a name. -/
theorem lookup_sortBy : (sortBy (fun e => key e.1) es).lookup name = es.lookup name := by
  rw [← lookup_withKey key (sortBy _ es), withKey_sortBy, lookup_withKey]

end

end Sorting
