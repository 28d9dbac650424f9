import Mathlib.Algebra.BigOperators.Group.List.Basic
import Mathlib.Algebra.GroupWithZero.Nat

/-!
Runs of a system given by a partial step function: `step s a` is the state that action `a` leads to from
`s`, or nothing when `a` is not enabled there. A run is the list of its actions (`exec`), an invariant is
proved once for a step and then holds at the end of every run (`exec_preserves`), and a property that only
holds while every step meets a condition is proved the same way over the runs that meet it
(`exec_preserves_along`).
-/

namespace Runs

variable {σ α : Type*} (step : σ → α → Option σ)

/-- The state a list of actions leads to, or nothing when one of them is not enabled. -/
def exec : σ → List α → Option σ
  | s, [] => some s
  | s, a :: as => (step s a).bind fun t => exec t as

/-- Every step of the run is taken from a state and by an action that meet the condition. -/
def Along (condition : σ → α → Prop) : σ → List α → Prop
  | _, [] => True
  | s, a :: as => condition s a ∧ ∀ t, step s a = some t → Along condition t as

/-- The invariant survives every enabled step. -/
def Preserves (inv : σ → Prop) : Prop :=
  ∀ s a t, inv s → step s a = some t → inv t

/-- The invariant survives every enabled step that meets the condition. -/
def PreservesWhen (condition : σ → α → Prop) (inv : σ → Prop) : Prop :=
  ∀ s a t, inv s → condition s a → step s a = some t → inv t

/-- What each step of a run yields, in order. -/
def trace {β : Type*} (yield : σ → α → σ → β) : σ → List α → List β
  | _, [] => []
  | s, a :: as =>
    match step s a with
    | none => []
    | some t => yield s a t :: trace yield t as

variable {step}

@[simp] theorem exec_nil (s : σ) : exec step s [] = some s := rfl

theorem exec_cons {s : σ} {a : α} {as : List α} {t : σ} :
    exec step s (a :: as) = some t ↔ ∃ u, step s a = some u ∧ exec step u as = some t := by
  simp only [exec, Option.bind_eq_some_iff]

/-- A run is a fold of the step. -/
theorem foldlM_eq_exec (s : σ) (as : List α) : as.foldlM step s = exec step s as := by
  induction as generalizing s with
  | nil => rfl
  | cons a as ih =>
    rw [List.foldlM_cons, exec, Option.bind_eq_bind]
    exact congrArg (step s a).bind (funext ih)

/-- A condition that every listed action meets in every state holds along the run. -/
theorem along_of_forall {condition : σ → α → Prop} {s : σ} {as : List α}
    (met : ∀ s, ∀ a ∈ as, condition s a) : Along step condition s as := by
  induction as generalizing s with
  | nil => trivial
  | cons a as ih =>
    exact ⟨met s a List.mem_cons_self, fun t _ => ih fun u b inside => met u b (List.mem_cons_of_mem _ inside)⟩

/-- A condition on the actions alone holds along a run exactly when each of its actions meets it. -/
theorem along_actions_iff {condition : α → Prop} {s t : σ} {as : List α} (executed : exec step s as = some t) :
    Along step (fun _ a => condition a) s as ↔ ∀ a ∈ as, condition a := by
  refine ⟨?_, fun met => along_of_forall fun _ => met⟩
  induction as generalizing s with
  | nil => exact fun _ a inside => nomatch inside
  | cons first rest ih =>
    rintro ⟨met, later⟩ a inside
    obtain ⟨u, stepped, others⟩ := exec_cons.mp executed
    rcases List.mem_cons.mp inside with rfl | inRest
    · exact met
    · exact ih others (later u stepped) a inRest

theorem along_append {condition : σ → α → Prop} {s : σ} {as bs : List α} :
    Along step condition s (as ++ bs) ↔
      Along step condition s as ∧ ∀ t, exec step s as = some t → Along step condition t bs := by
  induction as generalizing s with
  | nil => simp [Along]
  | cons a as ih =>
    simp only [List.cons_append, Along, exec_cons, ih]
    constructor
    · rintro ⟨met, later⟩
      refine ⟨⟨met, fun u stepped => (later u stepped).1⟩, ?_⟩
      rintro t ⟨u, stepped, reached⟩
      exact (later u stepped).2 t reached
    · rintro ⟨⟨met, earlier⟩, later⟩
      exact ⟨met, fun u stepped => ⟨earlier u stepped, fun t reached => later t ⟨u, stepped, reached⟩⟩⟩

theorem along_and {first second : σ → α → Prop} {s : σ} {as : List α} (alongFirst : Along step first s as)
    (alongSecond : Along step second s as) : Along step (fun s a => first s a ∧ second s a) s as := by
  induction as generalizing s with
  | nil => trivial
  | cons a as ih =>
    obtain ⟨met, later⟩ := alongFirst
    obtain ⟨metToo, laterToo⟩ := alongSecond
    exact ⟨⟨met, metToo⟩, fun t stepped => ih (later t stepped) (laterToo t stepped)⟩

/-- A condition holds along a run exactly when every step of the run meets it. -/
theorem along_iff_steps {condition : σ → α → Prop} {s : σ} {as : List α} :
    Along step condition s as ↔
      ∀ before a after t, as = before ++ a :: after → exec step s before = some t → condition t a := by
  induction as generalizing s with
  | nil =>
    refine ⟨fun _ before a after t parts => ?_, fun _ => trivial⟩
    simp at parts
  | cons first rest ih =>
    constructor
    · rintro ⟨met, later⟩ before a after t parts reaches
      cases before with
      | nil =>
        obtain ⟨rfl, rfl⟩ := List.cons.inj parts
        rw [exec_nil, Option.some.injEq] at reaches
        exact reaches ▸ met
      | cons head before =>
        obtain ⟨rfl, split⟩ := List.cons.inj parts
        obtain ⟨u, stepped, others⟩ := exec_cons.mp reaches
        exact ih.mp (later u stepped) before a after t split others
    · intro steps
      refine ⟨steps [] first rest s rfl rfl, fun u stepped => ih.mpr ?_⟩
      intro before a after t parts reaches
      exact steps (first :: before) a after t (by rw [parts, List.cons_append])
        (exec_cons.mpr ⟨u, stepped, reaches⟩)

/-- A condition that can be checked at a step can be checked along a run. -/
instance decidableAlong (condition : σ → α → Prop) [∀ s a, Decidable (condition s a)] :
    ∀ s as, Decidable (Along step condition s as)
  | _, [] => isTrue trivial
  | s, a :: as =>
    match stepped : step s a with
    | none => decidable_of_iff (condition s a) (by simp [Along, stepped])
    | some t =>
      have := decidableAlong condition t as
      decidable_of_iff (condition s a ∧ Along step condition t as) (by simp [Along, stepped])

/-- The end of a run that is enabled throughout, by evaluation. -/
theorem exec_eq_getD (step : σ → α → Option σ) (s : σ) (as : List α)
    (enabled : (exec step s as).isSome = true) (other : σ) :
    exec step s as = some ((exec step s as).getD other) := by
  obtain ⟨t, executed⟩ := Option.isSome_iff_exists.mp enabled
  rw [executed, Option.getD_some]

theorem trace_map {β γ : Type*} (yield : σ → α → σ → β) (f : β → γ) (s : σ) (as : List α) :
    (trace step yield s as).map f = trace step (fun s a t => f (yield s a t)) s as := by
  induction as generalizing s with
  | nil => rfl
  | cons a as ih =>
    cases stepped : step s a with
    | none => simp [trace, stepped]
    | some t => simp [trace, stepped, ih]

/-- Two readings of a step that agree wherever an invariant holds and a guard is met agree over a guarded run. -/
theorem trace_congr_along {β : Type*} {first second : σ → α → σ → β} {inv : σ → Prop} {guard : σ → α → Prop}
    (kept : ∀ s a t, inv s → guard s a → step s a = some t → inv t)
    (same : ∀ s a t, inv s → guard s a → step s a = some t → first s a t = second s a t) {s t : σ} {as : List α}
    (initial : inv s) (guarded : Along step guard s as) (executed : exec step s as = some t) :
    trace step first s as = trace step second s as := by
  induction as generalizing s with
  | nil => rfl
  | cons a as ih =>
    obtain ⟨u, stepped, rest⟩ := exec_cons.mp executed
    obtain ⟨met, later⟩ := guarded
    have tail := ih (kept s a u initial met stepped) (later u stepped) rest
    simp only [trace, stepped, same s a u initial met stepped, tail]

/-- Two conditions that agree wherever an invariant holds and a guard is met hold along the same guarded runs. -/
theorem along_congr_along {first second : σ → α → Prop} {inv : σ → Prop} {guard : σ → α → Prop}
    (kept : ∀ s a t, inv s → guard s a → step s a = some t → inv t)
    (same : ∀ s a t, inv s → guard s a → step s a = some t → (first s a ↔ second s a)) {s t : σ} {as : List α}
    (initial : inv s) (guarded : Along step guard s as) (executed : exec step s as = some t) :
    Along step first s as ↔ Along step second s as := by
  induction as generalizing s with
  | nil => exact Iff.rfl
  | cons a as ih =>
    obtain ⟨u, stepped, rest⟩ := exec_cons.mp executed
    obtain ⟨met, later⟩ := guarded
    have tail := ih (kept s a u initial met stepped) (later u stepped) rest
    have onlyNext : ∀ {P : σ → Prop}, (∀ v, step s a = some v → P v) ↔ P u := by
      intro P
      simp [stepped]
    rw [Along, Along, onlyNext, onlyNext, tail, same s a u initial met stepped]

/-- Two conditions that agree wherever an invariant holds, which a step keeps that meets the first of them, hold along
    the same runs. -/
theorem along_iff_along {first second : σ → α → Prop} (inv : σ → Prop)
    (kept : ∀ s a t, inv s → first s a → step s a = some t → inv t)
    (same : ∀ s a t, inv s → step s a = some t → (first s a ↔ second s a)) {s t : σ} {as : List α}
    (initial : inv s) (executed : exec step s as = some t) : Along step first s as ↔ Along step second s as := by
  induction as generalizing s with
  | nil => exact Iff.rfl
  | cons a as ih =>
    obtain ⟨u, stepped, rest⟩ := exec_cons.mp executed
    have onlyNext : ∀ {P : σ → Prop}, (∀ v, step s a = some v → P v) ↔ P u := by
      intro P
      simp [stepped]
    rw [Along, Along, onlyNext, onlyNext, ← same s a u initial stepped]
    exact and_congr_right fun met => ih (kept s a u initial met stepped) rest

/-- When each step is a step of another system, which one may depend on the state, a run is a run of the other
    system. -/
theorem exec_project {τ β : Type*} {other : τ → β → Option τ} {project : σ → τ} {act : σ → α → β}
    (simulated : ∀ s a t, step s a = some t → other (project s) (act s a) = some (project t)) {s t : σ}
    {as : List α} (executed : exec step s as = some t) :
    exec other (project s) (trace step (fun s a _ => act s a) s as) = some (project t) := by
  induction as generalizing s with
  | nil =>
    rw [exec_nil, Option.some.injEq] at executed
    rw [executed]
    rfl
  | cons a as ih =>
    obtain ⟨u, stepped, rest⟩ := exec_cons.mp executed
    rw [trace, stepped]
    exact exec_cons.mpr ⟨project u, simulated s a u stepped, ih rest⟩

/-- When each step is a step of another system or leaves its state alone, a run is a run of the other system. -/
theorem exec_erase {τ β : Type*} {other : τ → β → Option τ} {project : σ → τ} {act : α → Option β} {inv : σ → Prop}
    (kept : Preserves step inv)
    (simulated : ∀ s a t, inv s → step s a = some t → exec other (project s) (act a).toList = some (project t))
    {s t : σ} {as : List α} (initial : inv s) (executed : exec step s as = some t) :
    exec other (project s) (as.filterMap act) = some (project t) := by
  induction as generalizing s with
  | nil =>
    rw [exec_nil, Option.some.injEq] at executed
    rw [executed]
    rfl
  | cons a as ih =>
    obtain ⟨u, stepped, rest⟩ := exec_cons.mp executed
    have first := simulated s a u initial stepped
    have others := ih (kept s a u initial stepped) rest
    cases acts : act a with
    | none =>
      rw [acts, Option.toList_none, exec_nil, Option.some.injEq] at first
      rw [List.filterMap_cons_none acts, first]
      exact others
    | some b =>
      rw [acts, Option.toList_some, exec_cons] at first
      obtain ⟨v, moved, same⟩ := first
      rw [exec_nil, Option.some.injEq] at same
      rw [List.filterMap_cons_some acts]
      exact exec_cons.mpr ⟨v, moved, same ▸ others⟩

/-- A condition on the steps of the other system holds along its run exactly when the run that it comes from meets
    it. -/
theorem along_erase {τ β : Type*} {other : τ → β → Option τ} {project : σ → τ} {act : α → Option β} {inv : σ → Prop}
    {condition : τ → β → Prop} (kept : Preserves step inv)
    (simulated : ∀ s a t, inv s → step s a = some t → exec other (project s) (act a).toList = some (project t))
    {s t : σ} {as : List α} (initial : inv s) (executed : exec step s as = some t) :
    Along step (fun s a => ∀ b ∈ act a, condition (project s) b) s as ↔
      Along other condition (project s) (as.filterMap act) := by
  induction as generalizing s with
  | nil => exact Iff.rfl
  | cons a as ih =>
    obtain ⟨u, stepped, rest⟩ := exec_cons.mp executed
    have first := simulated s a u initial stepped
    have others := ih (kept s a u initial stepped) rest
    have onlyNext : ∀ {P : σ → Prop}, (∀ v, step s a = some v → P v) ↔ P u := by
      intro P
      simp [stepped]
    rw [Along, onlyNext, others]
    cases acts : act a with
    | none =>
      rw [acts, Option.toList_none, exec_nil, Option.some.injEq] at first
      rw [List.filterMap_cons_none acts, first]
      simp
    | some b =>
      rw [acts, Option.toList_some, exec_cons] at first
      obtain ⟨v, moved, same⟩ := first
      rw [exec_nil, Option.some.injEq] at same
      subst same
      rw [List.filterMap_cons_some acts, Along]
      simp [moved]

/-- What a run of the other system yields, read off the run that it comes from. -/
theorem trace_project {τ β γ : Type*} {other : τ → β → Option τ} {project : σ → τ} {act : σ → α → β}
    (simulated : ∀ s a t, step s a = some t → other (project s) (act s a) = some (project t))
    (yield : τ → β → τ → γ) {s t : σ} {as : List α} (executed : exec step s as = some t) :
    trace other yield (project s) (trace step (fun s a _ => act s a) s as) =
      trace step (fun s a t => yield (project s) (act s a) (project t)) s as := by
  induction as generalizing s with
  | nil => rfl
  | cons a as ih =>
    obtain ⟨u, stepped, rest⟩ := exec_cons.mp executed
    simp only [trace, stepped, simulated s a u stepped, ih rest]

/-- A run takes each of its actions. -/
theorem trace_actions {s t : σ} {as : List α} (executed : exec step s as = some t) :
    trace step (fun _ a _ => a) s as = as := by
  induction as generalizing s with
  | nil => rfl
  | cons a as ih =>
    obtain ⟨u, stepped, rest⟩ := exec_cons.mp executed
    simp only [trace, stepped, ih rest]

/-- What every step yields under an invariant is true of all that a run yields. -/
theorem trace_forall {β : Type*} {yield : σ → α → σ → β} {inv : σ → Prop} {property : β → Prop}
    (kept : Preserves step inv) (yields : ∀ s a t, inv s → step s a = some t → property (yield s a t)) {s : σ}
    {as : List α} (initial : inv s) : ∀ y ∈ trace step yield s as, property y := by
  induction as generalizing s with
  | nil => exact fun y inside => nomatch inside
  | cons a as ih =>
    intro y inside
    cases stepped : step s a with
    | none => simp [trace, stepped] at inside
    | some t =>
      simp only [trace, stepped, List.mem_cons] at inside
      rcases inside with rfl | later
      · exact yields s a t initial stepped
      · exact ih (kept s a t initial stepped) y later

theorem exec_preserves {inv : σ → Prop} (preserved : Preserves step inv) {s t : σ} {as : List α}
    (initial : inv s) (executed : exec step s as = some t) : inv t := by
  induction as generalizing s with
  | nil =>
    rw [exec_nil, Option.some.injEq] at executed
    exact executed ▸ initial
  | cons a as ih =>
    obtain ⟨u, stepped, rest⟩ := exec_cons.mp executed
    exact ih (preserved s a u initial stepped) rest

theorem exec_preserves_along {condition : σ → α → Prop} {inv : σ → Prop}
    (preserved : PreservesWhen step condition inv) {s t : σ} {as : List α} (initial : inv s)
    (along : Along step condition s as) (executed : exec step s as = some t) : inv t := by
  induction as generalizing s with
  | nil =>
    rw [exec_nil, Option.some.injEq] at executed
    exact executed ▸ initial
  | cons a as ih =>
    obtain ⟨u, stepped, rest⟩ := exec_cons.mp executed
    obtain ⟨met, later⟩ := along
    exact ih (preserved s a u initial met stepped) (later u stepped) rest

/-- When a step keeps the invariant exactly if it meets the condition, a run meets the condition throughout
    exactly if the invariant holds in every state that it reaches. -/
theorem along_iff_states {condition : σ → α → Prop} {inv : σ → Prop}
    (keptIff : ∀ s a t, inv s → step s a = some t → (inv t ↔ condition s a)) {s t : σ} {as : List α}
    (initial : inv s) (executed : exec step s as = some t) :
    Along step condition s as ↔ ∀ bs cs u, as = bs ++ cs → exec step s bs = some u → inv u := by
  induction as generalizing s with
  | nil =>
    refine ⟨fun _ bs cs u parts reaches => ?_, fun _ => trivial⟩
    have none : bs = [] := (List.append_eq_nil_iff.mp parts.symm).1
    rw [none, exec_nil, Option.some.injEq] at reaches
    exact reaches ▸ initial
  | cons a as ih =>
    obtain ⟨v, stepped, rest⟩ := exec_cons.mp executed
    constructor
    · rintro ⟨met, later⟩ bs cs u parts reaches
      have kept := (keptIff s a v initial stepped).mpr met
      cases bs with
      | nil =>
        rw [exec_nil, Option.some.injEq] at reaches
        exact reaches ▸ initial
      | cons b bs =>
        simp only [List.cons_append, List.cons.injEq] at parts
        obtain ⟨rfl, parts⟩ := parts
        obtain ⟨w, first, others⟩ := exec_cons.mp reaches
        rw [stepped, Option.some.injEq] at first
        subst first
        exact (ih kept rest).mp (later v stepped) bs cs u parts others
    · intro states
      have kept : inv v := states [a] as v rfl (by simp [exec, stepped])
      refine ⟨(keptIff s a v initial stepped).mp kept, fun w first => ?_⟩
      rw [stepped, Option.some.injEq] at first
      subst first
      refine (ih kept rest).mpr fun bs cs u parts reaches => ?_
      exact states (a :: bs) cs u (by rw [parts, List.cons_append]) (exec_cons.mpr ⟨v, stepped, reaches⟩)

/-- When a loss is never made good, and a step from a state without one is a loss exactly if it misses the condition, a
    run ends without loss exactly if it meets the condition throughout. -/
theorem ok_iff_along {condition : σ → α → Prop} {ok inv : σ → Prop} (sound : ∀ s, inv s → ok s)
    (kept : ∀ s a t, inv s → step s a = some t → (ok t ↔ condition s a) ∧ (ok t → inv t))
    (lost : ∀ s a t, step s a = some t → ok t → ok s) {s t : σ} {as : List α} (initial : inv s)
    (executed : exec step s as = some t) : ok t ↔ Along step condition s as := by
  induction as generalizing s with
  | nil =>
    rw [exec_nil, Option.some.injEq] at executed
    exact iff_of_true (executed ▸ sound s initial) trivial
  | cons a as ih =>
    obtain ⟨u, stepped, rest⟩ := exec_cons.mp executed
    obtain ⟨met, still⟩ := kept s a u initial stepped
    have stays : Preserves step fun s => ¬ ok s := fun s a t gone moved fine => gone (lost s a t moved fine)
    constructor
    · intro fine
      have now : ok u := by
        by_contra gone
        exact exec_preserves stays gone rest fine
      refine ⟨met.mp now, fun v moved => ?_⟩
      rw [stepped, Option.some.injEq] at moved
      subst moved
      exact (ih (still now) rest).mp fine
    · rintro ⟨now, later⟩
      exact (ih (still (met.mpr now)) rest).mpr (later u stepped)

/-- When no step raises a measure by more than its action costs, no run raises it by more than its actions
    cost together. -/
theorem exec_bounded_along {condition : σ → α → Prop} {inv : σ → Prop} {measure : σ → Nat}
    {cost : α → Nat} (preserved : PreservesWhen step condition inv)
    (bounded : ∀ s a t, inv s → condition s a → step s a = some t → measure t ≤ measure s + cost a)
    {s t : σ} {as : List α} (initial : inv s) (along : Along step condition s as)
    (executed : exec step s as = some t) : measure t ≤ measure s + (as.map cost).sum := by
  induction as generalizing s with
  | nil =>
    rw [exec_nil, Option.some.injEq] at executed
    simp [executed]
  | cons a as ih =>
    obtain ⟨u, stepped, rest⟩ := exec_cons.mp executed
    obtain ⟨met, later⟩ := along
    have first := bounded s a u initial met stepped
    have others := ih (preserved s a u initial met stepped) (later u stepped) rest
    simp only [List.map_cons, List.sum_cons]
    omega

/-- An account of what the steps so far have yielded, kept while every step meets the guard. The last argument
    of the account says whether some step so far has missed the condition. -/
theorem exec_accounts {β : Type*} {yield : σ → α → σ → β} {guard condition : σ → α → Prop}
    {account : σ → List β → Prop → Prop}
    (kept : ∀ s a t yielded missed, account s yielded missed → guard s a → step s a = some t →
      account t (yielded ++ [yield s a t]) (missed ∨ ¬ condition s a))
    {s t : σ} {as : List α} {yielded : List β} {missed : Prop} (initial : account s yielded missed)
    (guarded : Along step guard s as) (executed : exec step s as = some t) :
    account t (yielded ++ trace step yield s as) (missed ∨ ¬ Along step condition s as) := by
  induction as generalizing s yielded missed with
  | nil =>
    rw [exec_nil, Option.some.injEq] at executed
    subst executed
    have unmissed : (missed ∨ ¬ Along step condition s []) = missed := by simp [Along]
    rw [unmissed]
    simpa [trace] using initial
  | cons a as ih =>
    obtain ⟨u, stepped, rest⟩ := exec_cons.mp executed
    obtain ⟨met, later⟩ := guarded
    have next := ih (kept s a u yielded missed initial met stepped) (later u stepped) rest
    have yields : trace step yield s (a :: as) = yield s a u :: trace step yield u as := by
      simp [trace, stepped]
    have along : Along step condition s (a :: as) ↔ condition s a ∧ Along step condition u as := by
      simp [Along, stepped]
    have misses : (missed ∨ ¬ Along step condition s (a :: as)) =
        ((missed ∨ ¬ condition s a) ∨ ¬ Along step condition u as) := by
      rw [along, not_and_or, or_assoc]
    rw [yields, misses]
    simpa using next

/-- An account that does not ask for a condition. -/
theorem exec_records {β : Type*} {yield : σ → α → σ → β} {guard : σ → α → Prop}
    {account : σ → List β → Prop}
    (kept : ∀ s a t yielded, account s yielded → guard s a → step s a = some t →
      account t (yielded ++ [yield s a t]))
    {s t : σ} {as : List α} {yielded : List β} (initial : account s yielded)
    (guarded : Along step guard s as) (executed : exec step s as = some t) :
    account t (yielded ++ trace step yield s as) :=
  @exec_accounts σ α step β yield guard (fun _ _ => True) (fun s yielded _ => account s yielded)
    (fun s a t yielded _ => kept s a t yielded) s t as yielded False initial guarded executed

end Runs
