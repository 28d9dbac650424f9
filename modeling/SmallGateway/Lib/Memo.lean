import Mathlib.Logic.Function.Basic

/-!
A memo table: what a function gives for an argument is kept under a key of the argument, and given for every argument of
the key from then on. The table gives what the function gives as long as no two of the arguments that it was asked for
share a key (`Table.owned_iff`). `owner` names the argument that the entry of a key was computed for.
-/

namespace Memo

variable {α κ β : Type*}

/-- What is held under each key has been computed for its owner, which has the key and has been asked for. -/
structure Table (key : α → κ) (f : α → β) (held : κ → Option β) (owner : κ → Option α) (asked : List α) : Prop where
  computed : ∀ k, held k = (owner k).map f
  inside : ∀ k a, owner k = some a → key a = k ∧ a ∈ asked
  kept : ∀ a ∈ asked, (owner (key a)).isSome

/-- Every argument that has been asked for owns the entry of its key. -/
def Separate (key : α → κ) (owner : κ → Option α) (asked : List α) : Prop := ∀ a ∈ asked, owner (key a) = some a

variable {key : α → κ} {f : α → β} {held : κ → Option β} {owner : κ → Option α} {asked : List α} {a : α}

namespace Table

theorem empty : Table key f (fun _ => none) (fun _ => none) [] := ⟨fun _ => rfl, nofun, nofun⟩

/-- A miss computes the entry. -/
theorem store [DecidableEq κ] (table : Table key f held owner asked) (miss : held (key a) = none) :
    Table key f (Function.update held (key a) (some (f a))) (Function.update owner (key a) (some a)) (a :: asked) := by
  refine ⟨fun k => ?_, fun k b owns => ?_, fun b listed => ?_⟩
  · by_cases own : k = key a
    · simp [own]
    · simp [own, table.computed]
  · by_cases own : k = key a
    · subst own
      rw [Function.update_self, Option.some.injEq] at owns
      exact ⟨owns ▸ rfl, owns ▸ List.mem_cons_self⟩
    · rw [Function.update_of_ne own] at owns
      exact ⟨(table.inside k b owns).1, List.mem_cons_of_mem _ (table.inside k b owns).2⟩
  · by_cases own : key b = key a
    · simp [own]
    · rcases List.mem_cons.mp listed with rfl | before
      · exact absurd rfl own
      · rw [Function.update_of_ne own]
        exact table.kept b before

/-- A hit leaves the table. -/
theorem hit (table : Table key f held owner asked) (there : (held (key a)).isSome) :
    Table key f held owner (a :: asked) := by
  refine ⟨table.computed, fun k b owns => ?_, fun b listed => ?_⟩
  · exact ⟨(table.inside k b owns).1, List.mem_cons_of_mem _ (table.inside k b owns).2⟩
  · rcases List.mem_cons.mp listed with rfl | before
    · rwa [table.computed, Option.isSome_map] at there
    · exact table.kept b before

/-- No entry of another argument stands in the way exactly when no other argument of the key has been asked for. -/
theorem owned_iff (table : Table key f held owner asked) (separate : Separate key owner asked) :
    (∀ b, owner (key a) = some b → b = a) ↔ ∀ b ∈ asked, key b = key a → b = a := by
  constructor
  · intro own b listed same
    exact own b (same ▸ separate b listed)
  · intro apart b owns
    obtain ⟨same, listed⟩ := table.inside _ _ owns
    exact apart b listed same

/-- An entry of its own gives what the function gives. -/
theorem answer (table : Table key f held owner asked) (own : ∀ b, owner (key a) = some b → b = a) :
    (held (key a)).getD (f a) = f a := by
  rw [table.computed]
  cases owns : owner (key a) with
  | none => rfl
  | some b =>
    obtain rfl := own b owns
    rfl

theorem separate_store [DecidableEq κ] (table : Table key f held owner asked) (separate : Separate key owner asked)
    (miss : held (key a) = none) : Separate key (Function.update owner (key a) (some a)) (a :: asked) := by
  intro b listed
  rcases List.mem_cons.mp listed with rfl | before
  · exact Function.update_self ..
  · have other : key b ≠ key a := by
      intro same
      rw [table.computed, Option.map_eq_none_iff, ← same, separate b before] at miss
      cases miss
    rw [Function.update_of_ne other]
    exact separate b before

theorem separate_hit (table : Table key f held owner asked) (separate : Separate key owner asked)
    (own : ∀ b, owner (key a) = some b → b = a) (there : (held (key a)).isSome) : Separate key owner (a :: asked) := by
  intro b listed
  rcases List.mem_cons.mp listed with rfl | before
  · rw [table.computed, Option.isSome_map] at there
    obtain ⟨c, owns⟩ := Option.isSome_iff_exists.mp there
    rw [owns, own c owns]
  · exact separate b before

end Table

end Memo
