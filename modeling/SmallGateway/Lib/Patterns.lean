import Mathlib.Data.List.Basic

/-!
A text cut at the first occurrence of a pattern. A part in which the pattern does not occur, nor begin, is passed over
(`cut?_clear`), and such parts may stand one after the other (`clear_append`).
-/

namespace Patterns

variable {α : Type*} [BEq α]

/-- What stands before the first occurrence of a pattern, and what stands after it. -/
def cut? (pattern : List α) : List α → Option (List α × List α)
  | [] => if pattern.isEmpty then some ([], []) else none
  | x :: rest =>
    if pattern.isPrefixOf (x :: rest) then some ([], (x :: rest).drop pattern.length)
    else (cut? pattern rest).map fun (before, after) => (x :: before, after)

/-- The pattern neither occurs nor begins in a part: whatever follows the part, it starts behind it. -/
def clear (pattern : List α) : List α → Bool
  | [] => true
  | x :: rest => !pattern.isPrefixOf (x :: rest) && !(x :: rest).isPrefixOf pattern && clear pattern rest

variable {pattern part other : List α}

theorem clear_cons_iff {x : α} : clear pattern (x :: part) = true ↔ pattern.isPrefixOf (x :: part) = false ∧
    (x :: part).isPrefixOf pattern = false ∧ clear pattern part = true := by
  simp only [clear, Bool.and_eq_true, Bool.not_eq_true', and_assoc]

variable [LawfulBEq α]

theorem not_isPrefixOf_append (occurs : pattern.isPrefixOf part = false) (begins : part.isPrefixOf pattern = false)
    (rest : List α) : pattern.isPrefixOf (part ++ rest) = false := by
  by_contra found
  rw [Bool.not_eq_false, List.isPrefixOf_iff_prefix] at found
  rcases List.prefix_or_prefix_of_prefix found (List.prefix_append part rest) with whole | start
  · exact Bool.false_ne_true (occurs.symm.trans (List.isPrefixOf_iff_prefix.mpr whole))
  · exact Bool.false_ne_true (begins.symm.trans (List.isPrefixOf_iff_prefix.mpr start))

/-- A part that is clear is passed over. -/
theorem cut?_clear (clears : clear pattern part = true) (rest : List α) :
    cut? pattern (part ++ rest) = (cut? pattern rest).map fun (before, after) => (part ++ before, after) := by
  induction part with
  | nil => exact Option.map_id'.symm ▸ rfl
  | cons x part ih =>
    obtain ⟨occurs, begins, later⟩ := clear_cons_iff.mp clears
    have passes := not_isPrefixOf_append occurs begins rest
    rw [List.cons_append] at passes ⊢
    rw [cut?, passes, if_neg Bool.false_ne_true, ih later, Option.map_map]
    rfl

/-- The text is cut where the pattern stands. -/
theorem cut?_here (rest : List α) : cut? pattern (pattern ++ rest) = some ([], rest) := by
  cases pattern with
  | nil => cases rest <;> rfl
  | cons x more =>
    have here : (x :: more).isPrefixOf (x :: more ++ rest) = true :=
      List.isPrefixOf_iff_prefix.mpr (List.prefix_append _ _)
    rw [List.cons_append] at here ⊢
    rw [cut?, if_pos here, ← List.cons_append, List.drop_left]

theorem cut?_part (clears : clear pattern part = true) (rest : List α) :
    cut? pattern (part ++ (pattern ++ rest)) = some (part, rest) := by
  rw [cut?_clear clears, cut?_here]
  exact congrArg (fun before => some (before, rest)) (List.append_nil part)

theorem clear_append (first : clear pattern part = true) (second : clear pattern other = true) :
    clear pattern (part ++ other) = true := by
  induction part with
  | nil => exact second
  | cons x part ih =>
    obtain ⟨occurs, begins, later⟩ := clear_cons_iff.mp first
    refine clear_cons_iff.mpr ⟨not_isPrefixOf_append occurs begins other, ?_, ih later⟩
    by_contra found
    rw [Bool.not_eq_false, List.isPrefixOf_iff_prefix] at found
    have start := (List.prefix_append (x :: part) other).trans found
    exact Bool.false_ne_true (begins.symm.trans (List.isPrefixOf_iff_prefix.mpr start))

/-- A part without the first element of the pattern is clear. -/
theorem clear_of_not_mem {x : α} {more : List α} (absent : x ∉ part) : clear (x :: more) part = true := by
  induction part with
  | nil => rfl
  | cons y part ih =>
    have apart : (x == y) = false := beq_eq_false_iff_ne.mpr (List.ne_of_not_mem_cons absent)
    have apartToo : (y == x) = false := beq_eq_false_iff_ne.mpr (List.ne_of_not_mem_cons absent).symm
    refine clear_cons_iff.mpr ⟨?_, ?_, ih (List.not_mem_of_not_mem_cons absent)⟩
    · rw [List.isPrefixOf, apart, Bool.false_and]
    · rw [List.isPrefixOf, apartToo, Bool.false_and]

end Patterns
