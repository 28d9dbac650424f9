import Mathlib.Data.List.Forall2
import Mathlib.Data.List.ReduceOption

/-!
Functions that can fail, mapped over lists: what a list that is mapped whole consists of, and that only the elements of
the list matter. Steps that report errors, folded over lists: what a fold without errors has recorded.
-/

namespace Fallible

universe u

variable {α β γ ε : Type*}

theorem bind_ok {α β : Type u} {x : Except ε α} {f : α → Except ε β} {y : β} :
    (x >>= f) = .ok y ↔ ∃ a, x = .ok a ∧ f a = .ok y := by
  cases x with
  | error e => simp [bind, Except.bind]
  | ok a => simp [bind, Except.bind]

theorem map_ok {x : Except ε α} {f : α → β} {y : β} : x.map f = .ok y ↔ ∃ a, x = .ok a ∧ f a = y := by
  cases x with
  | error e => simp [Except.map]
  | ok a => simp [Except.map]

theorem mapError_ok {x : Except ε α} {f : ε → β} {a : α} : x.mapError f = .ok a ↔ x = .ok a := by
  cases x <;> simp [Except.mapError]

theorem mapM_cons_ok {f : α → Except ε β} {x : α} {xs : List α} {ys : List β} :
    (x :: xs).mapM f = .ok ys ↔ ∃ y rest, f x = .ok y ∧ xs.mapM f = .ok rest ∧ ys = y :: rest := by
  rw [List.mapM_cons]
  cases f x with
  | error e => simp [bind, Except.bind]
  | ok y =>
    cases xs.mapM f with
    | error e => simp [bind, Except.bind]
    | ok rest =>
      simp only [bind, Except.bind, pure, Except.pure, Except.ok.injEq]
      exact ⟨fun same => ⟨y, rest, rfl, rfl, same.symm⟩, fun ⟨_, _, one, others, same⟩ => by rw [same, one, others]⟩

/-- A list that a fallible function maps whole is mapped element by element. -/
theorem forall₂_of_mapM_ok {f : α → Except ε β} {xs : List α} {ys : List β} (mapped : xs.mapM f = .ok ys) :
    List.Forall₂ (fun x y => f x = .ok y) xs ys := by
  induction xs generalizing ys with
  | nil =>
    rw [List.mapM_nil] at mapped
    cases mapped
    exact .nil
  | cons x xs ih =>
    obtain ⟨y, rest, one, others, rfl⟩ := mapM_cons_ok.mp mapped
    exact .cons one (ih others)

theorem mapM_ok_of_forall₂ {f : α → Except ε β} {xs : List α} {ys : List β}
    (each : List.Forall₂ (fun x y => f x = .ok y) xs ys) : xs.mapM f = .ok ys := by
  induction each with
  | nil => rfl
  | cons one _ ih => exact mapM_cons_ok.mpr ⟨_, _, one, ih, rfl⟩

/-- A function that succeeds on every element of a list maps it whole. -/
theorem mapM_ok_of_forall {f : α → Except ε β} {g : α → β} {xs : List α} (each : ∀ x ∈ xs, f x = .ok (g x)) :
    xs.mapM f = .ok (xs.map g) := by
  induction xs with
  | nil => rfl
  | cons x xs ih =>
    rw [List.map_cons, mapM_cons_ok]
    have others := ih fun other later => each other (List.mem_cons_of_mem x later)
    exact ⟨g x, xs.map g, each x List.mem_cons_self, others, rfl⟩

/-- A function that does not fail on the elements of a list maps the list. -/
theorem mapM_total (f : α → Except ε β) (xs : List α) (each : ∀ x ∈ xs, ∃ y, f x = .ok y) :
    ∃ ys, xs.mapM f = .ok ys := by
  induction xs with
  | nil => exact ⟨[], rfl⟩
  | cons x xs ih =>
    obtain ⟨y, one⟩ := each x List.mem_cons_self
    obtain ⟨rest, others⟩ := ih fun other listed => each other (List.mem_cons_of_mem _ listed)
    exact ⟨y :: rest, mapM_cons_ok.mpr ⟨y, rest, one, others, rfl⟩⟩

theorem exists_of_forall₂ {relation : α → β → Prop} {xs : List α} {ys : List β}
    (related : List.Forall₂ relation xs ys) : ∀ y ∈ ys, ∃ x ∈ xs, relation x y := by
  intro y found
  induction related with
  | nil => cases found
  | @cons x first xs rest one _ ih =>
    rcases List.mem_cons.mp found with rfl | later
    · exact ⟨x, List.mem_cons_self, one⟩
    · obtain ⟨other, inside, same⟩ := ih later
      exact ⟨other, List.mem_cons_of_mem x inside, same⟩

/-- Each element of the result comes from an element of the list. -/
theorem exists_of_mapM_ok {f : α → Except ε β} {xs : List α} {ys : List β} (mapped : xs.mapM f = .ok ys) :
    ∀ y ∈ ys, ∃ x ∈ xs, f x = .ok y :=
  exists_of_forall₂ (forall₂_of_mapM_ok mapped)

/-- Each element of a list that is mapped whole has its own in the result. -/
theorem exists_of_mem_mapM {f : α → Except ε β} {xs : List α} {ys : List β} (mapped : xs.mapM f = .ok ys) :
    ∀ x ∈ xs, ∃ y ∈ ys, f x = .ok y :=
  exists_of_forall₂ (forall₂_of_mapM_ok mapped).flip

/-- A mapping that fails, fails at an element of the list. -/
theorem exists_of_mapM_error {f : α → Except ε β} {xs : List α} {e : ε} (mapped : xs.mapM f = .error e) :
    ∃ x ∈ xs, f x = .error e := by
  induction xs with
  | nil => cases mapped
  | cons x xs ih =>
    rw [List.mapM_cons] at mapped
    cases one : f x with
    | error e' =>
      simp only [one, bind, Except.bind, Except.error.injEq] at mapped
      exact ⟨x, List.mem_cons_self, by rw [one, mapped]⟩
    | ok y =>
      cases others : xs.mapM f with
      | error e' =>
        simp only [one, others, bind, Except.bind, Except.error.injEq] at mapped
        obtain ⟨later, inside, failed⟩ := ih (by rw [others, mapped])
        exact ⟨later, List.mem_cons_of_mem x inside, failed⟩
      | ok rest => simp [one, others, bind, Except.bind, pure, Except.pure] at mapped

theorem mapM_congr {f g : α → Except ε β} {xs : List α} (agree : ∀ x ∈ xs, f x = g x) : xs.mapM f = xs.mapM g := by
  induction xs with
  | nil => rfl
  | cons x xs ih =>
    rw [List.mapM_cons, List.mapM_cons, agree x List.mem_cons_self,
      ih fun other found => agree other (List.mem_cons_of_mem x found)]

theorem forall₂_comp {r : α → β → Prop} {q : β → γ → Prop} {xs : List α} {ys : List β} {zs : List γ}
    (first : List.Forall₂ r xs ys) (second : List.Forall₂ q ys zs) :
    List.Forall₂ (fun x z => ∃ y, r x y ∧ q y z) xs zs := by
  induction first generalizing zs with
  | nil =>
    cases second
    exact .nil
  | cons related _ ih =>
    cases second with
    | cons relates others => exact .cons ⟨_, related, relates⟩ (ih others)

/-- Two lists of what may be there, with the same gaps and the same elements. -/
theorem eq_of_reduceOption {xs ys : List (Option α)} (gaps : xs.map Option.isSome = ys.map Option.isSome)
    (same : xs.reduceOption = ys.reduceOption) : xs = ys := by
  induction xs generalizing ys with
  | nil => exact (List.map_eq_nil_iff.mp gaps.symm).symm
  | cons x xs ih =>
    cases ys with
    | nil => cases gaps
    | cons y ys =>
      rw [List.map_cons, List.map_cons, List.cons.injEq] at gaps
      cases x with
      | none =>
        obtain rfl : y = none := by simpa using gaps.1.symm
        rw [List.reduceOption_cons_of_none, List.reduceOption_cons_of_none] at same
        rw [ih gaps.2 same]
      | some first =>
        obtain ⟨firstToo, rfl⟩ := Option.isSome_iff_exists.mp gaps.1.symm
        rw [List.reduceOption_cons_of_some, List.reduceOption_cons_of_some, List.cons.injEq] at same
        rw [same.1, ih gaps.2 same.2]

/-- A step that reports errors, after what was reported before. -/
def reporting {σ : Type*} (step : σ → α → σ × List ε) (before : σ × List ε) (x : α) : σ × List ε :=
  ((step before.1 x).1, before.2 ++ (step before.1 x).2)

/-- A fold that reports no error has recorded what each element enters, when one step without errors records what it
    enters and keeps what was recorded before. -/
theorem recorded_of_foldl {σ : Type*} (step : σ → α → σ × List ε) (enters : α → List β) (recorded : σ → β → Prop)
    (one : ∀ state x, (step state x).2 = [] →
      (∀ entry ∈ enters x, recorded (step state x).1 entry) ∧
        ∀ entry, recorded state entry → recorded (step state x).1 entry)
    (xs : List α) (before : σ × List ε) (clean : (xs.foldl (reporting step) before).2 = []) :
    before.2 = [] ∧ (∀ x ∈ xs, ∀ entry ∈ enters x, recorded (xs.foldl (reporting step) before).1 entry) ∧
      ∀ entry, recorded before.1 entry → recorded (xs.foldl (reporting step) before).1 entry := by
  induction xs generalizing before with
  | nil => exact ⟨clean, by simp, fun _ known => known⟩
  | cons x xs ih =>
    rw [List.foldl_cons] at clean ⊢
    obtain ⟨none, others, kept⟩ := ih (reporting step before x) clean
    obtain ⟨before_nil, own⟩ := List.append_eq_nil_iff.mp none
    obtain ⟨entered, keeps⟩ := one before.1 x own
    refine ⟨before_nil, ?_, fun entry known => kept entry (keeps entry known)⟩
    intro other listed entry enters
    rcases List.mem_cons.mp listed with rfl | later
    · exact kept entry (entered entry enters)
    · exact others other later entry enters

end Fallible
