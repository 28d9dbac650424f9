import Mathlib.Data.List.Forall2
import SmallGateway.Lib.Sorting

/-!
The elements of a list by their rank. The one of rank `i` is at most a bound exactly when more than `i` elements are
(`getElem_le_iff`), so that raising elements lowers none of a rank (`sorted_getElem_le`).
-/

namespace OrderStatistics

open Sorting (sortBy sortBy_perm sortBy_sorted)

variable {α : Type*} [LinearOrder α] {xs ys : List α}

/-- In a sorted list, the element at a place is at most a bound exactly when more elements are than stand before it. -/
theorem getElem_le_iff (sorted : xs.Pairwise (· ≤ ·)) {i : Nat} (inside : i < xs.length) {bound : α} :
    xs[i] ≤ bound ↔ i < xs.countP (· ≤ bound) := by
  induction xs generalizing i with
  | nil => exact absurd inside (Nat.not_lt_zero i)
  | cons x rest ih =>
    obtain ⟨least, sortedRest⟩ := List.pairwise_cons.mp sorted
    by_cases below : x ≤ bound
    · rw [List.countP_cons_of_pos (by simpa using below)]
      cases i with
      | zero => exact iff_of_true below (Nat.succ_pos _)
      | succ i =>
        rw [List.getElem_cons_succ, ih sortedRest (Nat.lt_of_succ_lt_succ inside)]
        exact Nat.succ_lt_succ_iff.symm
    · -- The first element is above the bound, and so are all of them.
      have none : (x :: rest).countP (· ≤ bound) = 0 := by
        refine List.countP_eq_zero.mpr fun y listed => ?_
        rcases List.mem_cons.mp listed with rfl | later
        · simpa using below
        · simpa using (not_le.mp below).trans_le (least y later)
      rw [none]
      refine iff_of_false (fun upTo => below (le_trans ?_ upTo)) (Nat.not_lt_zero i)
      cases i with
      | zero => exact le_rfl
      | succ i => exact least _ (List.getElem_mem _)

theorem countP_le_of_forall₂ (raised : List.Forall₂ (· ≤ ·) xs ys) (bound : α) :
    ys.countP (· ≤ bound) ≤ xs.countP (· ≤ bound) := by
  induction raised with
  | nil => exact le_rfl
  | @cons x y _ _ less _ ih =>
    by_cases below : y ≤ bound
    · rw [List.countP_cons_of_pos (by simpa using below), List.countP_cons_of_pos (by simpa using less.trans below)]
      omega
    · rw [List.countP_cons_of_neg (by simpa using below), List.countP_cons]
      omega

/-- Where the elements of a list are raised, and perhaps put in another order, the element of a rank is no smaller. -/
theorem sorted_getElem_le {raised : List α} (perm : ys.Perm raised) (each : List.Forall₂ (· ≤ ·) xs raised) {i : Nat}
    (inside : i < (sortBy id xs).length) (insideToo : i < (sortBy id ys).length) :
    (sortBy id xs)[i] ≤ (sortBy id ys)[i] := by
  rw [getElem_le_iff (sortBy_sorted id xs), (sortBy_perm id xs).countP_eq]
  have own := (getElem_le_iff (sortBy_sorted id ys) insideToo).mp (le_refl (sortBy id ys)[i])
  rw [(sortBy_perm id ys).countP_eq, perm.countP_eq] at own
  exact own.trans_le (countP_le_of_forall₂ each _)

end OrderStatistics
