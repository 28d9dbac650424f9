import Mathlib.Data.List.Induction

/-!
Chains of scopes, the top one first. The lowest scope that sets something wins (`lowest`); what one scope adds is still
there at the end of the chain when every scope below keeps what it inherits (`Kept`).
-/

namespace Chains

variable {σ α : Type*}

/-- What the lowest scope sets of those that set anything. -/
def lowest (look : σ → Option α) (chain : List σ) : Option α := chain.reverse.findSome? look

@[simp] theorem lowest_nil (look : σ → Option α) : lowest look [] = none := rfl

@[simp] theorem lowest_concat (look : σ → Option α) (chain : List σ) (scope : σ) :
    lowest look (chain ++ [scope]) = (look scope).or (lowest look chain) := by
  rw [lowest, List.reverse_append, List.reverse_singleton, List.singleton_append, List.findSome?_cons, lowest]
  cases look scope <;> rfl

/-- Some scope adds it, and every scope below keeps what it inherits. -/
def Kept (keeps adds : σ → Prop) (chain : List σ) : Prop :=
  ∃ upper scope lower, chain = upper ++ scope :: lower ∧ adds scope ∧ ∀ below ∈ lower, keeps below

variable {keeps adds : σ → Prop}

theorem not_kept_nil : ¬ Kept keeps adds [] := by
  rintro ⟨upper, scope, lower, parts, -⟩
  simp at parts

/-- One more scope adds it, or keeps what it inherits. -/
theorem kept_concat {chain : List σ} {scope : σ} :
    Kept keeps adds (chain ++ [scope]) ↔ (keeps scope ∧ Kept keeps adds chain) ∨ adds scope := by
  constructor
  · rintro ⟨upper, other, lower, parts, added, below⟩
    rcases List.eq_nil_or_concat lower with rfl | ⟨rest, last, rfl⟩
    · obtain ⟨-, same⟩ := List.append_inj' parts rfl
      obtain rfl := List.singleton_inj.mp same
      exact .inr added
    · rw [List.concat_eq_append, ← List.cons_append, ← List.append_assoc] at parts
      obtain ⟨above, same⟩ := List.append_inj' parts rfl
      obtain rfl := List.singleton_inj.mp same
      refine .inl ⟨below scope (by simp), upper, other, rest, above, added, fun one listed => ?_⟩
      exact below one (by simp [listed])
  · rintro (⟨kept, upper, other, lower, rfl, added, below⟩ | added)
    · refine ⟨upper, other, lower ++ [scope], by simp, added, fun one listed => ?_⟩
      rcases List.mem_append.mp listed with above | last
      · exact below one above
      · exact List.mem_singleton.mp last ▸ kept
    · exact ⟨chain, scope, [], rfl, added, by simp⟩

/-- A property of chains that every scope adds or keeps is what `Kept` says. -/
theorem iff_kept (holds : List σ → Prop) (none : ¬ holds [])
    (step : ∀ chain scope, holds (chain ++ [scope]) ↔ (keeps scope ∧ holds chain) ∨ adds scope) (chain : List σ) :
    holds chain ↔ Kept keeps adds chain := by
  induction chain using List.reverseRecOn with
  | nil => exact iff_of_false none not_kept_nil
  | append_singleton chain scope ih => rw [step, kept_concat, ih]

/-- What a chain inherits is kept by all the scopes below it, or one of these adds it again. -/
theorem kept_append {upper lower : List σ} :
    Kept keeps adds (upper ++ lower) ↔
      (Kept keeps adds upper ∧ ∀ below ∈ lower, keeps below) ∨ Kept keeps adds lower := by
  induction lower using List.reverseRecOn with
  | nil => simp [not_kept_nil]
  | append_singleton lower scope ih =>
    rw [← List.append_assoc, kept_concat, ih, kept_concat, List.forall_mem_append, List.forall_mem_singleton]
    tauto

end Chains
