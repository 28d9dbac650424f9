import Mathlib.Data.List.Basic
import Mathlib.Data.List.Nodup
import Mathlib.Data.Nat.Find
import Std.Data.TreeMap.Basic

/-!
The counters of a policy module across a swap (`gateway-wasm/src/state.rs`). A module that comes with a newer schema
takes its counters along the declared migrations, where the first one from each version is followed (`Walk`), and starts
with none where the walk does not end at the new schema (`try_migrate_greedy`). A walk that comes back to a version goes
on forever (`loop_never_returns`).
-/

namespace SmallGateway

abbrev CounterMap := Std.TreeMap String Int

/-- The counters of a module, and the schema they are laid out for. -/
structure Counters where
  schema : Nat
  values : CounterMap

def Counters.new (schema : Nat) : Counters := ⟨schema, ∅⟩

/-- A declared migration from one schema to another. -/
structure Migration where
  fromSchema : Nat
  toSchema : Nat
  map : CounterMap → CounterMap

inductive MigrationOutcome
  | inherited (schema keys : Nat)
  | migrated (fromSchema toSchema keys : Nat)
  | reset (fromSchema toSchema windowSecs : Nat)
  | initialized (schema : Nat)
  deriving DecidableEq

namespace Migration

variable (migrations : List Migration)

/-- The first migration that is declared from a version. -/
def stepFrom (version : Nat) : Option Migration := migrations.find? fun m => m.fromSchema = version

/-- The loop of `try_migrate`, within some turns: nothing where it needs more of them than there are. -/
def migrateLoop (toSchema : Nat) : Nat → Nat → CounterMap → Option (Option CounterMap)
  | turns, current, acc =>
    if current < toSchema then
      match turns with
      | 0 => none
      | turns + 1 =>
        match stepFrom migrations current with
        | none => some none
        | some step => migrateLoop toSchema turns step.toSchema (step.map acc)
    else some (if current = toSchema then some acc else none)

/-- The migrated counters, or that there is no way to the schema. A lower one is never migrated to. -/
def tryMigrate (turns : Nat) (values : CounterMap) (fromSchema toSchema : Nat) : Option (Option CounterMap) :=
  if fromSchema > toSchema then some none else migrateLoop migrations toSchema turns fromSchema values

/-- The counters that a module goes on with, and what was done to them. -/
def plan (turns : Nat) (old : Option Counters) (newSchema resetWindowSecs : Nat) :
    Option (Counters × MigrationOutcome) :=
  match old with
  | none => some (.new newSchema, .initialized newSchema)
  | some old =>
    if old.schema = newSchema then some (old, .inherited newSchema old.values.size)
    else
      (tryMigrate migrations turns old.values old.schema newSchema).map fun
        | some values => (⟨newSchema, values⟩, .migrated old.schema newSchema values.size)
        | none => (.new newSchema, .reset old.schema newSchema resetWindowSecs)

/-- `ModuleState::rebind`: the module's counters are those of the plan. -/
def rebind (turns : Nat) (state : Std.TreeMap String Counters) (module : String)
    (newSchema resetWindowSecs : Nat) : Option (MigrationOutcome × Std.TreeMap String Counters) :=
  (plan migrations turns state[module]? newSchema resetWindowSecs).map fun (next, outcome) =>
    (outcome, state.insert module next)

/-! ### Chains of declared steps -/

/-- The steps are declared, and lead from one version to the other. -/
inductive Chain : Nat → List Migration → Nat → Prop
  | nil (version : Nat) : Chain version [] version
  | cons {version final : Nat} {m : Migration} {steps : List Migration} (declared : m ∈ migrations)
    (starts : m.fromSchema = version) (rest : Chain m.toSchema steps final) : Chain version (m :: steps) final

/-- What the steps make of some counters, one after another. -/
def composed (steps : List Migration) (values : CounterMap) : CounterMap :=
  steps.foldl (fun acc step => step.map acc) values

/-- The walk that takes the first declared step from each version below the target. It ends at the target or above it,
    or at a version that no step is declared from. -/
inductive Followed (toSchema : Nat) : Nat → List Migration → Nat → Prop
  | arrived {current : Nat} (there : toSchema ≤ current) : Followed toSchema current [] current
  | stuck {current : Nat} (below : current < toSchema) (none : stepFrom migrations current = none) :
    Followed toSchema current [] current
  | step {current final : Nat} {m : Migration} {steps : List Migration} (below : current < toSchema)
    (first : stepFrom migrations current = some m) (rest : Followed toSchema m.toSchema steps final) :
    Followed toSchema current (m :: steps) final

variable {migrations} {toSchema current final : Nat} {steps : List Migration} {acc : CounterMap}

theorem stepFrom_some {version : Nat} {m : Migration} (first : stepFrom migrations version = some m) :
    m ∈ migrations ∧ m.fromSchema = version :=
  ⟨List.mem_of_find?_eq_some first, by simpa using List.find?_some first⟩

theorem Followed.chain (followed : Followed migrations toSchema current steps final) :
    Chain migrations current steps final := by
  induction followed with
  | arrived there => exact .nil _
  | stuck below none => exact .nil _
  | step below first rest ih =>
    obtain ⟨declared, starts⟩ := stepFrom_some first
    exact .cons declared starts ih

/-- Turns enough for the walk give what it leads to. -/
theorem Followed.migrateLoop (followed : Followed migrations toSchema current steps final) {turns : Nat}
    (enough : steps.length < turns) (acc : CounterMap) :
    migrateLoop migrations toSchema turns current acc =
      some (if final = toSchema then some (composed steps acc) else none) := by
  induction followed generalizing turns acc with
  | arrived there =>
    obtain ⟨turns, rfl⟩ := Nat.exists_eq_succ_of_ne_zero (Nat.ne_of_gt enough)
    rw [Migration.migrateLoop, if_neg (Nat.not_lt.mpr there)]
    rfl
  | stuck below none =>
    obtain ⟨turns, rfl⟩ := Nat.exists_eq_succ_of_ne_zero (Nat.ne_of_gt enough)
    rw [Migration.migrateLoop, if_pos below, if_neg (Nat.ne_of_lt below)]
    simp only [none]
  | step below first rest ih =>
    obtain ⟨turns, rfl⟩ := Nat.exists_eq_succ_of_ne_zero (Nat.ne_of_gt (Nat.zero_lt_of_lt enough))
    rw [Migration.migrateLoop, if_pos below]
    simp only [first]
    exact ih (Nat.lt_of_succ_lt_succ enough) _

/-- A loop that returns has followed a walk to its end, and returns what it leads to. -/
theorem exists_followed {turns : Nat} {result : Option CounterMap}
    (returns : migrateLoop migrations toSchema turns current acc = some result) :
    ∃ steps final, Followed migrations toSchema current steps final ∧
      result = if final = toSchema then some (composed steps acc) else none := by
  induction turns generalizing current acc with
  | zero =>
    rw [migrateLoop] at returns
    by_cases below : current < toSchema
    · rw [if_pos below] at returns
      cases returns
    · rw [if_neg below] at returns
      exact ⟨[], current, .arrived (Nat.not_lt.mp below), (Option.some.inj returns).symm⟩
  | succ turns ih =>
    rw [migrateLoop] at returns
    by_cases below : current < toSchema
    · rw [if_pos below] at returns
      cases first : stepFrom migrations current with
      | none =>
        simp only [first, Option.some.injEq] at returns
        exact ⟨[], current, .stuck below first, by rw [if_neg (Nat.ne_of_lt below), returns]⟩
      | some m =>
        simp only [first] at returns
        obtain ⟨steps, final, rest, leads⟩ := ih returns
        exact ⟨m :: steps, final, .step below first rest, leads⟩
    · rw [if_neg below] at returns
      exact ⟨[], current, .arrived (Nat.not_lt.mp below), (Option.some.inj returns).symm⟩

/-- Where every step goes up, the walk ends. -/
theorem followed_of_up (up : ∀ m ∈ migrations, m.fromSchema < m.toSchema) (toSchema current : Nat) :
    ∃ steps final, Followed migrations toSchema current steps final := by
  induction left : toSchema - current using Nat.strong_induction_on generalizing current with
  | _ left ih =>
    by_cases below : current < toSchema
    · cases first : stepFrom migrations current with
      | none => exact ⟨[], current, .stuck below first⟩
      | some m =>
        obtain ⟨declared, starts⟩ := stepFrom_some first
        have higher := up m declared
        obtain ⟨steps, final, rest⟩ := ih (toSchema - m.toSchema) (by omega) m.toSchema rfl
        exact ⟨m :: steps, final, .step below first rest⟩
    · exact ⟨[], current, .arrived (Nat.not_lt.mp below)⟩

theorem Chain.le (chain : Chain migrations current steps final) (up : ∀ m ∈ migrations, m.fromSchema < m.toSchema) :
    current ≤ final := by
  induction chain with
  | nil => exact le_rfl
  | cons declared starts rest ih =>
    have higher := up _ declared
    omega

/-- Where every step goes up and no two start from one version, the walk is the chain to the target that there is. -/
theorem Chain.followed (chain : Chain migrations current steps toSchema)
    (up : ∀ m ∈ migrations, m.fromSchema < m.toSchema) (single : (migrations.map (·.fromSchema)).Nodup) :
    Followed migrations toSchema current steps toSchema := by
  induction chain with
  | nil version => exact .arrived le_rfl
  | @cons version final m steps declared starts rest ih =>
    have higher := up m declared
    have upTo := rest.le up
    have first : stepFrom migrations version = some m := by
      cases found : stepFrom migrations version with
      | none => exact absurd (List.find?_eq_none.mp found m declared) (by simpa using starts)
      | some other =>
        obtain ⟨declaredToo, startsToo⟩ := stepFrom_some found
        rw [List.inj_on_of_nodup_map single declaredToo declared (startsToo.trans starts.symm)]
    exact .step (by omega) first ih

/-- A walk that never leaves some versions below the target, each of which a step is declared from, goes on forever. -/
theorem loop_never_returns {versions : Nat → Prop} (below : ∀ version, versions version → version < toSchema)
    (closed : ∀ version, versions version → ∃ m, stepFrom migrations version = some m ∧ versions m.toSchema)
    (inside : versions current) (turns : Nat) : migrateLoop migrations toSchema turns current acc = none := by
  induction turns generalizing current acc with
  | zero => rw [migrateLoop, if_pos (below current inside)]
  | succ turns ih =>
    obtain ⟨m, first, stays⟩ := closed current inside
    rw [migrateLoop, if_pos (below current inside)]
    simp only [first]
    exact ih stays

/-! ### What is migrated -/

/-- The migration returns the result, given turns enough. -/
def Returns (migrations : List Migration) (values : CounterMap) (fromSchema toSchema : Nat)
    (result : Option CounterMap) : Prop := ∃ turns, tryMigrate migrations turns values fromSchema toSchema = some result

theorem returns_followed {values : CounterMap} {fromSchema : Nat} (upward : fromSchema ≤ toSchema)
    (followed : Followed migrations toSchema fromSchema steps final) :
    Returns migrations values fromSchema toSchema
      (if final = toSchema then some (composed steps values) else none) := by
  refine ⟨steps.length + 1, ?_⟩
  rw [tryMigrate, if_neg (Nat.not_lt.mpr upward)]
  exact followed.migrateLoop (Nat.lt_succ_self _) values

theorem returns_downgrade {values : CounterMap} {fromSchema : Nat} (down : toSchema < fromSchema)
    {result : Option CounterMap} : Returns migrations values fromSchema toSchema result ↔ result = none := by
  constructor
  · rintro ⟨turns, returned⟩
    rw [tryMigrate, if_pos down] at returned
    exact (Option.some.inj returned).symm
  · rintro rfl
    exact ⟨0, if_pos down⟩

/-- What is returned is what the walk leads to. -/
theorem returns_iff {values : CounterMap} {fromSchema : Nat} (upward : fromSchema ≤ toSchema)
    {result : Option CounterMap} :
    Returns migrations values fromSchema toSchema result ↔ ∃ steps final,
      Followed migrations toSchema fromSchema steps final ∧
        result = if final = toSchema then some (composed steps values) else none := by
  constructor
  · rintro ⟨turns, returned⟩
    rw [tryMigrate, if_neg (Nat.not_lt.mpr upward)] at returned
    exact exists_followed returned
  · rintro ⟨steps, final, followed, rfl⟩
    exact returns_followed upward followed

/-- What is migrated is composed along declared steps. -/
theorem returns_chain {values result : CounterMap} {fromSchema : Nat}
    (returned : Returns migrations values fromSchema toSchema (some result)) :
    ∃ steps, Chain migrations fromSchema steps toSchema ∧ result = composed steps values := by
  by_cases down : toSchema < fromSchema
  · cases (returns_downgrade down).mp returned
  · obtain ⟨steps, final, followed, leads⟩ := (returns_iff (Nat.not_lt.mp down)).mp returned
    by_cases there : final = toSchema
    · subst there
      rw [if_pos rfl] at leads
      exact ⟨steps, followed.chain, Option.some.inj leads⟩
    · rw [if_neg there] at leads
      cases leads

/-- The walk from a version has one end only, since one step is followed from each version. -/
theorem Followed.unique {otherSteps : List Migration} {otherFinal : Nat}
    (followed : Followed migrations toSchema current steps final)
    (other : Followed migrations toSchema current otherSteps otherFinal) : steps = otherSteps ∧ final = otherFinal := by
  induction followed generalizing otherSteps otherFinal with
  | arrived there =>
    cases other with
    | arrived => exact ⟨rfl, rfl⟩
    | stuck below => exact absurd below (Nat.not_lt.mpr there)
    | step below => exact absurd below (Nat.not_lt.mpr there)
  | stuck below none =>
    cases other with
    | arrived there => exact absurd below (Nat.not_lt.mpr there)
    | stuck => exact ⟨rfl, rfl⟩
    | step _ first => exact nomatch none.symm.trans first
  | step below first rest ih =>
    cases other with
    | arrived there => exact absurd below (Nat.not_lt.mpr there)
    | stuck _ none => exact nomatch none.symm.trans first
    | step _ firstToo restToo =>
      obtain rfl := Option.some.inj (first.symm.trans firstToo)
      obtain ⟨rfl, rfl⟩ := ih restToo
      exact ⟨rfl, rfl⟩

/-- The counters that a module goes on with once the migration has returned, and the outcome. -/
def resumed (fromSchema toSchema resetWindowSecs : Nat) : Option CounterMap → Counters × MigrationOutcome
  | some values => (⟨toSchema, values⟩, .migrated fromSchema toSchema values.size)
  | none => (.new toSchema, .reset fromSchema toSchema resetWindowSecs)

theorem plan_returned {values : CounterMap} {fromSchema turns resetWindowSecs : Nat} {result : Option CounterMap}
    (bumped : fromSchema ≠ toSchema) (returned : tryMigrate migrations turns values fromSchema toSchema = some result) :
    plan migrations turns (some ⟨fromSchema, values⟩) toSchema resetWindowSecs =
      some (resumed fromSchema toSchema resetWindowSecs result) := by
  simp only [plan, if_neg bumped, returned, Option.map_some]
  cases result with
  | none => rfl
  | some values => rfl

/-- A migration from one schema to another goes by the first step that is declared from each version. -/
structure MigratesGreedily (migrations : List Migration) (values : CounterMap) (fromSchema toSchema : Nat) : Prop where
  /-- A lower schema is never migrated to. -/
  downgrade : toSchema < fromSchema → ∀ result, Returns migrations values fromSchema toSchema result ↔ result = none
  /-- The end of the walk decides. -/
  ended : fromSchema ≤ toSchema → ∀ steps final, Followed migrations toSchema fromSchema steps final → ∀ result,
    Returns migrations values fromSchema toSchema result ↔
      result = if final = toSchema then some (composed steps values) else none
  along : ∀ result, Returns migrations values fromSchema toSchema (some result) →
    ∃ steps, Chain migrations fromSchema steps toSchema ∧ result = composed steps values
  terminates : (∀ m ∈ migrations, m.fromSchema < m.toSchema) →
    ∃ result, Returns migrations values fromSchema toSchema result
  /-- Where no version branches, a chain that there is will be found. -/
  complete : (∀ m ∈ migrations, m.fromSchema < m.toSchema) → (migrations.map (·.fromSchema)).Nodup → ∀ result,
    Returns migrations values fromSchema toSchema (some result) ↔
      ∃ steps, Chain migrations fromSchema steps toSchema ∧ result = composed steps values
  /-- A module whose schema changed goes on with the migrated counters, or with none for the stated window. -/
  rebound : fromSchema ≠ toSchema → ∀ result, Returns migrations values fromSchema toSchema result →
    ∀ (state : Std.TreeMap String Counters) (module : String) (resetWindowSecs : Nat),
      state[module]? = some ⟨fromSchema, values⟩ → ∃ turns,
        rebind migrations turns state module toSchema resetWindowSecs =
          some ((resumed fromSchema toSchema resetWindowSecs result).2,
            state.insert module (resumed fromSchema toSchema resetWindowSecs result).1)

theorem try_migrate_greedy (migrations : List Migration) (values : CounterMap) (fromSchema toSchema : Nat) :
    MigratesGreedily migrations values fromSchema toSchema where
  downgrade down _ := returns_downgrade down
  ended upward steps final followed result := by
    rw [returns_iff upward]
    constructor
    · rintro ⟨otherSteps, otherFinal, other, leads⟩
      obtain ⟨rfl, rfl⟩ := followed.unique other
      exact leads
    · intro leads
      exact ⟨steps, final, followed, leads⟩
  along _ returned := returns_chain returned
  terminates up := by
    by_cases down : toSchema < fromSchema
    · exact ⟨none, (returns_downgrade down).mpr rfl⟩
    · obtain ⟨steps, final, followed⟩ := followed_of_up up toSchema fromSchema
      exact ⟨_, returns_followed (Nat.not_lt.mp down) followed⟩
  complete up single result := by
    constructor
    · exact returns_chain
    · rintro ⟨steps, chain, rfl⟩
      have returned : Returns migrations values fromSchema toSchema _ :=
        returns_followed (chain.le up) (chain.followed up single)
      rwa [if_pos rfl] at returned
  rebound bumped result := by
    rintro ⟨turns, returned⟩ state module resetWindowSecs bound
    refine ⟨turns, ?_⟩
    rw [rebind, bound, plan_returned bumped returned]
    rfl

/-- A declared step down is a chain, and is not followed. -/
theorem downgrade_not_migrated :
    ¬ ∀ (migrations : List Migration) (values : CounterMap) (fromSchema toSchema : Nat) (result : CounterMap),
      Returns migrations values fromSchema toSchema (some result) ↔
        ∃ steps, Chain migrations fromSchema steps toSchema ∧ result = composed steps values := by
  intro always
  let down : Migration := ⟨2, 1, id⟩
  have chain : Chain [down] 2 [down] 1 := .cons (List.mem_singleton_self down) rfl (.nil 1)
  obtain ⟨turns, returned⟩ := (always [down] ∅ 2 1 ∅).mpr ⟨[down], chain, rfl⟩
  cases returned

end Migration

end SmallGateway
