import Mathlib.Data.List.Infix

/-!
Texts flattened by writing a separator as two marks, and read back by taking every two marks, from the left, for a
separator. What is read back is the text exactly when it has no two marks in a row and no mark before a separator
(`unflatten_flatten_iff`), so such texts have different flat forms.
-/

namespace Flattening

variable {α : Type*}

/-- Whether a mark is followed by neither a mark nor a separator. -/
def Clean (separator mark : α) : List α → Prop
  | [] => True
  | c :: rest =>
    (c = mark → rest.head? ≠ some mark ∧ rest.head? ≠ some separator) ∧ Clean separator mark rest

variable {separator mark : α}

/-! ### Clean texts -/

theorem clean_append (first second : List α) :
    Clean separator mark (first ++ second) ↔
      Clean separator mark first ∧ Clean separator mark second ∧
        (first.getLast? = some mark → second.head? ≠ some mark ∧ second.head? ≠ some separator) := by
  induction first with
  | nil => simp [Clean]
  | cons c rest ih =>
    rw [List.cons_append, Clean, Clean, ih]
    cases rest with
    | nil => simp [Clean, and_comm]
    | cons d rest => simp [List.getLast?_cons_cons, and_assoc]

/-- A text without marks is clean. -/
theorem clean_of_not_mem {text : List α} (unmarked : mark ∉ text) : Clean separator mark text := by
  induction text with
  | nil => trivial
  | cons c rest ih =>
    rw [List.mem_cons, not_or] at unmarked
    exact ⟨fun marked => absurd marked.symm unmarked.1, ih unmarked.2⟩

/-- A text between two others without marks is clean by itself and does not end in a mark before a separator. -/
theorem clean_between {before after : List α} (first : mark ∉ before) (last : mark ∉ after) (text : List α) :
    Clean separator mark (before ++ text ++ after) ↔
      Clean separator mark text ∧ (text.getLast? = some mark → after.head? ≠ some separator) := by
  have unmarked : before.getLast? ≠ some mark := fun ends => first (List.mem_of_getLast? ends)
  have begins : after.head? ≠ some mark := fun starts => last (List.mem_of_head? starts)
  rw [clean_append, clean_append, and_iff_right (clean_of_not_mem first), and_iff_right (clean_of_not_mem last)]
  cases text with
  | nil => simp [Clean, unmarked]
  | cons c rest =>
    have ending : (before ++ c :: rest).getLast? = (c :: rest).getLast? := by
      rw [List.getLast?_append_of_ne_nil _ (List.cons_ne_nil c rest)]
    rw [ending]
    simp [unmarked, begins]

theorem clean_iff (text : List α) :
    Clean separator mark text ↔ ¬ [mark, mark] <:+: text ∧ ¬ [mark, separator] <:+: text := by
  induction text with
  | nil => simp [Clean]
  | cons c rest ih =>
    rw [Clean, ih, List.infix_cons_iff, List.infix_cons_iff]
    cases rest with
    | nil => simp
    | cons d rest =>
      simp only [List.head?_cons, List.cons_prefix_cons, List.nil_prefix, and_true]
      grind

/-! ### Reading back -/

variable [DecidableEq α]

/-- The text with each separator written as two marks. -/
def flatten (separator mark : α) (text : List α) : List α :=
  text.flatMap fun c => if c = separator then [mark, mark] else [c]

/-- The text with each pair of marks, from the left, read as a separator. -/
def unflatten (separator mark : α) : List α → List α
  | first :: second :: rest =>
    if first = mark ∧ second = mark then separator :: unflatten separator mark rest
    else first :: unflatten separator mark (second :: rest)
  | short => short

theorem flatten_cons (c : α) (rest : List α) :
    flatten separator mark (c :: rest) =
      (if c = separator then [mark, mark] else [c]) ++ flatten separator mark rest := by
  rw [flatten, List.flatMap_cons, ← flatten]

theorem unflatten_marks (rest : List α) :
    unflatten separator mark (mark :: mark :: rest) = separator :: unflatten separator mark rest := by
  rw [unflatten, if_pos ⟨rfl, rfl⟩]

theorem unflatten_cons {c : α} {rest : List α} (alone : c = mark → rest.head? ≠ some mark) :
    unflatten separator mark (c :: rest) = c :: unflatten separator mark rest := by
  cases rest with
  | nil => rfl
  | cons second rest =>
    rw [unflatten, if_neg]
    rintro ⟨rfl, rfl⟩
    exact alone rfl rfl

/-- The flat form begins with what the text begins with, or with a mark for a separator. -/
theorem head?_flatten (text : List α) :
    (flatten separator mark text).head? = text.head?.map fun c => if c = separator then mark else c := by
  cases text with
  | nil => rfl
  | cons c rest =>
    rw [flatten_cons]
    by_cases slash : c = separator <;> simp [slash]

/-- What is read back is the text exactly when the text is clean. -/
theorem unflatten_flatten_iff_clean (differ : mark ≠ separator) (text : List α) :
    unflatten separator mark (flatten separator mark text) = text ↔ Clean separator mark text := by
  induction text with
  | nil => exact iff_of_true rfl trivial
  | cons c rest ih =>
    rw [flatten_cons, Clean]
    by_cases slash : c = separator
    · subst slash
      rw [if_pos rfl, List.cons_append, List.singleton_append, unflatten_marks, List.cons.injEq, ih]
      simp [Ne.symm differ]
    · rw [if_neg slash, List.singleton_append]
      by_cases alone : c = mark → rest.head? ≠ some mark ∧ rest.head? ≠ some separator
      · have apart : c = mark → (flatten separator mark rest).head? ≠ some mark := by
          intro marked
          obtain ⟨noMark, noSeparator⟩ := alone marked
          rw [head?_flatten]
          cases first : rest.head? with
          | none => simp
          | some d =>
            have other : d ≠ separator := fun equal => noSeparator (by rw [first, equal])
            simpa [other, first] using noMark
        rw [unflatten_cons apart, List.cons.injEq, ih, and_iff_right rfl, and_iff_right alone]
      · obtain ⟨rfl, clash⟩ := Classical.not_imp.mp alone
        have paired : (flatten separator c rest).head? = some c := by
          rw [head?_flatten]
          rcases Classical.not_and_iff_not_or_not.mp clash with marked | separated
          · simp [not_not.mp marked, slash]
          · simp [not_not.mp separated]
        obtain ⟨tail, flat⟩ := List.head?_eq_some_iff.mp paired
        rw [flat, unflatten_marks]
        exact iff_of_false (fun same => slash (List.cons.inj same).1.symm) fun both => alone both.1

/-- What is read back is the text exactly when no mark is followed by a mark or a separator. -/
theorem unflatten_flatten_iff (differ : mark ≠ separator) (text : List α) :
    unflatten separator mark (flatten separator mark text) = text ↔
      ¬ [mark, mark] <:+: text ∧ ¬ [mark, separator] <:+: text :=
  (unflatten_flatten_iff_clean differ text).trans (clean_iff text)

end Flattening
