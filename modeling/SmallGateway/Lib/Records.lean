import Mathlib.Data.List.Basic

/-!
Records of two parts written one after the other: a first part, a separator, a second part, a terminator. What is
written tells the records apart when the separator does not stand in a first part, nor the terminator in a second one
(`encode_injective`).
-/

namespace Records

variable {α : Type*} {separator terminator : α}

def encode (separator terminator : α) (records : List (List α × List α)) : List α :=
  records.flatMap fun record => record.1 ++ separator :: (record.2 ++ [terminator])

/-- The separator and the terminator can be found. -/
def Separable (separator terminator : α) (record : List α × List α) : Prop :=
  separator ∉ record.1 ∧ terminator ∉ record.2

theorem encode_cons (record : List α × List α) (rest : List (List α × List α)) :
    encode separator terminator (record :: rest) =
      record.1 ++ separator :: (record.2 ++ terminator :: encode separator terminator rest) := by
  simp [encode]

/-- What stands before and after the first separator. -/
theorem split_injective {before other after others : List α} (first : separator ∉ before) (firstToo : separator ∉ other)
    (same : before ++ separator :: after = other ++ separator :: others) : before = other ∧ after = others := by
  induction before generalizing other with
  | nil =>
    cases other with
    | nil => exact ⟨rfl, (List.cons.inj same).2⟩
    | cons x rest => exact absurd (List.cons.inj same).1 (List.ne_of_not_mem_cons firstToo)
  | cons x rest ih =>
    cases other with
    | nil => exact absurd (List.cons.inj same).1.symm (List.ne_of_not_mem_cons first)
    | cons y restToo =>
      obtain ⟨rfl, tails⟩ := List.cons.inj same
      obtain ⟨rfl, later⟩ := ih (List.not_mem_of_not_mem_cons first) (List.not_mem_of_not_mem_cons firstToo) tails
      exact ⟨rfl, later⟩

/-- What stands before and after the last separator. -/
theorem split_last {before other after others : List α} (last : separator ∉ after) (lastToo : separator ∉ others)
    (same : before ++ separator :: after = other ++ separator :: others) : before = other ∧ after = others := by
  have turned : after.reverse ++ separator :: before.reverse = others.reverse ++ separator :: other.reverse := by
    simpa using congrArg List.reverse same
  obtain ⟨ends, starts⟩ := split_injective (by simpa using last) (by simpa using lastToo) turned
  exact ⟨List.reverse_injective starts, List.reverse_injective ends⟩

theorem encode_injective {records others : List (List α × List α)}
    (separable : ∀ record ∈ records, Separable separator terminator record)
    (separableToo : ∀ record ∈ others, Separable separator terminator record)
    (same : encode separator terminator records = encode separator terminator others) : records = others := by
  induction records generalizing others with
  | nil =>
    cases others with
    | nil => rfl
    | cons other rest => simp [encode] at same
  | cons record rest ih =>
    cases others with
    | nil => simp [encode] at same
    | cons other restToo =>
      obtain ⟨here, later⟩ := List.forall_mem_cons.mp separable
      obtain ⟨hereToo, laterToo⟩ := List.forall_mem_cons.mp separableToo
      rw [encode_cons, encode_cons] at same
      obtain ⟨first, rest⟩ := split_injective here.1 hereToo.1 same
      obtain ⟨second, tails⟩ := split_injective here.2 hereToo.2 rest
      rw [Prod.ext first second, ih later laterToo tails]

/-! ### Pieces -/

theorem not_mem_intercalate {x : α} (other : x ≠ separator) {pieces : List (List α)} (plain : ∀ piece ∈ pieces, x ∉ piece) :
    x ∉ [separator].intercalate pieces := by
  induction pieces with
  | nil => exact List.not_mem_nil
  | cons piece rest ih =>
    obtain ⟨here, later⟩ := List.forall_mem_cons.mp plain
    cases rest with
    | nil => rwa [List.intercalate_singleton]
    | cons next rest =>
      rw [List.intercalate_cons_cons, List.append_assoc, List.mem_append, List.singleton_append, List.mem_cons]
      exact fun inside => inside.elim here fun inside => inside.elim other (ih later)

section
variable [BEq α] [LawfulBEq α] {whole piece : List α}

/-- What stands before and after a separator, where it is the same one of the text. -/
theorem split_of_count {before other after others : List α} (counts : before.count separator = other.count separator)
    (same : before ++ separator :: after = other ++ separator :: others) : before = other ∧ after = others := by
  induction before generalizing other with
  | nil =>
    cases other with
    | nil => exact ⟨rfl, (List.cons.inj same).2⟩
    | cons x rest =>
      obtain ⟨rfl, -⟩ := List.cons.inj same
      simp at counts
  | cons x rest ih =>
    cases other with
    | nil =>
      obtain ⟨rfl, -⟩ := List.cons.inj same
      simp at counts
    | cons y restToo =>
      obtain ⟨rfl, tails⟩ := List.cons.inj same
      rw [List.count_cons, List.count_cons, Nat.add_right_cancel_iff] at counts
      obtain ⟨rfl, later⟩ := ih counts tails
      exact ⟨rfl, later⟩

/-- Pieces that hold something and no separator are told apart. -/
theorem intercalate_injective {pieces others : List (List α)} (plain : ∀ piece ∈ pieces, separator ∉ piece ∧ piece ≠ [])
    (plainToo : ∀ piece ∈ others, separator ∉ piece ∧ piece ≠ [])
    (same : [separator].intercalate pieces = [separator].intercalate others) : pieces = others := by
  have filled {pieces : List (List α)} (some_ : pieces ≠ []) (plain : ∀ piece ∈ pieces, separator ∉ piece ∧ piece ≠ []) :
      [separator].intercalate pieces ≠ [] := by
    obtain ⟨piece, rest, rfl⟩ := List.exists_cons_of_ne_nil some_
    have inside := (plain piece List.mem_cons_self).2
    cases rest with
    | nil => rwa [List.intercalate_singleton]
    | cons next rest =>
      rw [List.intercalate_cons_cons]
      simp
  by_cases none_ : pieces = []
  · subst none_
    by_cases noneToo : others = []
    · exact noneToo.symm
    · exact absurd same.symm (filled noneToo plainToo)
  · by_cases noneToo : others = []
    · subst noneToo
      exact absurd same (filled none_ plain)
    · rw [← List.splitOn_intercalate separator (fun piece listed => (plain piece listed).1) none_, same,
        List.splitOn_intercalate separator (fun piece listed => (plainToo piece listed).1) noneToo]

/-- A piece between separators holds no separator, and nothing that the whole does not hold. -/
theorem mem_splitOn (listed : piece ∈ whole.splitOn separator) : separator ∉ piece ∧ ∀ x ∈ piece, x ∈ whole := by
  induction whole generalizing piece with
  | nil =>
    rw [List.splitOn_nil, List.mem_singleton] at listed
    rw [listed]
    exact ⟨List.not_mem_nil, nofun⟩
  | cons c rest ih =>
    rw [List.splitOn_cons_eq_if_modifyHead] at listed
    by_cases same : (c == separator) = true
    · rw [if_pos same, List.mem_cons] at listed
      rcases listed with rfl | listed
      · exact ⟨List.not_mem_nil, nofun⟩
      · exact ⟨(ih listed).1, fun x inside => List.mem_cons_of_mem _ ((ih listed).2 x inside)⟩
    · rw [if_neg same] at listed
      cases parts : rest.splitOn separator with
      | nil => exact absurd parts (List.splitOn_ne_nil separator rest)
      | cons first others =>
        rw [parts, List.modifyHead_cons, List.mem_cons] at listed
        rw [parts] at ih
        rcases listed with rfl | listed
        · obtain ⟨plain, within⟩ := ih List.mem_cons_self
          refine ⟨fun inside => ?_, List.forall_mem_cons.mpr ⟨List.mem_cons_self, fun x inside => ?_⟩⟩
          · rcases List.mem_cons.mp inside with again | inside
            · exact same (by simp [← again])
            · exact plain inside
          · exact List.mem_cons_of_mem _ (within x inside)
        · obtain ⟨plain, within⟩ := ih (List.mem_cons_of_mem _ listed)
          exact ⟨plain, fun x inside => List.mem_cons_of_mem _ (within x inside)⟩

end

end Records
