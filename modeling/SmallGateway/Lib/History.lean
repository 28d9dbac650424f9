import Mathlib.Data.List.Basic

/-!
Histories in which every event is justified by the ones before it. A system that keeps its history proves this one
step at a time: the events a step adds are justified by the history so far (`justified_append`), and what was
justified stays so.
-/

namespace History

variable {ε : Type*} {justified : List ε → ε → Prop}

/-- Every event of the history is justified by the events before it. -/
def Justified (justified : List ε → ε → Prop) (history : List ε) : Prop :=
  ∀ before event after, history = before ++ event :: after → justified before event

theorem justified_nil : Justified justified [] := by
  intro before event after parts
  simp at parts

theorem justified_concat {history : List ε} {event : ε} :
    Justified justified (history ++ [event]) ↔ Justified justified history ∧ justified history event := by
  constructor
  · intro all
    refine ⟨fun before other after parts => ?_, all history event [] rfl⟩
    exact all before other (after ++ [event]) (by rw [parts, List.append_assoc, List.cons_append])
  · rintro ⟨earlier, last⟩ before other after parts
    rcases List.eq_nil_or_concat after with rfl | ⟨rest, final, rfl⟩
    · obtain ⟨rfl, same⟩ := List.append_inj' parts rfl
      rw [List.cons.injEq] at same
      exact same.1 ▸ last
    · rw [List.concat_eq_append, ← List.cons_append, ← List.append_assoc] at parts
      obtain ⟨parts, -⟩ := List.append_inj' parts rfl
      exact earlier before other rest parts

/-- Every event of the block is justified by the history and the events of the block before it. -/
def Follows (justified : List ε → ε → Prop) (history block : List ε) : Prop :=
  ∀ before event after, block = before ++ event :: after → justified (history ++ before) event

@[simp] theorem follows_nil {history : List ε} : Follows justified history [] := by
  intro before event after parts
  simp at parts

theorem follows_cons {history block : List ε} {event : ε} :
    Follows justified history (event :: block) ↔
      justified history event ∧ Follows justified (history ++ [event]) block := by
  constructor
  · intro all
    refine ⟨by simpa using all [] event block rfl, fun before other after parts => ?_⟩
    simpa using all (event :: before) other after (by rw [parts, List.cons_append])
  · rintro ⟨first, others⟩ before other after parts
    cases before with
    | nil =>
      obtain ⟨rfl, -⟩ := List.cons.inj parts
      simpa using first
    | cons head before =>
      obtain ⟨rfl, rest⟩ := List.cons.inj parts
      simpa using others before other after rest

theorem follows_append {history first second : List ε} :
    Follows justified history (first ++ second) ↔
      Follows justified history first ∧ Follows justified (history ++ first) second := by
  induction first generalizing history with
  | nil => simp
  | cons event rest ih => rw [List.cons_append, follows_cons, follows_cons, ih, and_assoc, List.append_assoc]; rfl

theorem justified_append {history block : List ε} :
    Justified justified (history ++ block) ↔ Justified justified history ∧ Follows justified history block := by
  induction block generalizing history with
  | nil => simp
  | cons event rest ih =>
    rw [List.append_cons, ih, justified_concat, follows_cons, and_assoc]

end History
