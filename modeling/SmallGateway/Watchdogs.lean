import SmallGateway.AtomicBinding

/-!
The engines that modules run on, and the watchdogs that advance their epochs (`gateway-wasm/src/host.rs`,
`gatewayd/src/wasm_runtime.rs`). Compiling a module creates an engine for it alone. A runtime starts one watchdog, when
it boots, for the engine of one module, and none at a swap. So every module has a watched engine only in a runtime that
booted with one module at most, and was never swapped to a config with modules (`watched_iff`).
-/

namespace SmallGateway

/-- A loaded module on the engine that was created for it. -/
structure HostedModule where
  module : LoadedModule
  engine : Nat
  deriving DecidableEq

/-- The modules of a set, compiled in order when some engines have been created before. -/
def hostModules : Nat → List LoadedModule → List HostedModule
  | _, [] => []
  | created, module :: rest => ⟨module, created⟩ :: hostModules (created + 1) rest

/-- The runtime with its engines: the modules of each version, how many engines were created, and those that a watchdog
    thread ticks. A thread lives as long as the process. -/
structure HostedRuntime where
  byVersion : Std.TreeMap Nat (List HostedModule)
  perEvent : Bool
  breakGlass : Option BreakGlass
  created : Nat
  watchdogs : List Nat

/-- The module of a name. A name that is used twice stands for the last module that has it. -/
def moduleNamed (modules : List HostedModule) (name : String) : Option HostedModule :=
  modules.reverse.find? (·.module.name == name)

/-- The module whose engine is watched: the first one that is asked about requests, or else the first one. -/
def watchedModule (modules : List HostedModule) : Option HostedModule :=
  match modules.find? (·.module.implements .onRequest) with
  | some module => some module
  | none => modules.head?.bind fun first => moduleNamed modules first.module.name

/-- Starts the thread for an engine, which the system may refuse. -/
def spawnWatchdog (spawns : Bool) (module : Option HostedModule) : List Nat :=
  if spawns then (module.map (·.engine)).toList else []

/-- The runtime of the first config. -/
def HostedRuntime.bootstrap (loader : ModuleLoader) (files : Files) (spawns : Bool) (snap : Snapshot WasmConfig) :
    Except String HostedRuntime :=
  (loadSet loader files snap.config).map fun set =>
    let modules := hostModules 0 set.modules
    ⟨Std.TreeMap.empty.insert snap.version modules, snap.config.perEventHooks, none, modules.length,
      spawnWatchdog spawns (watchedModule modules)⟩

def HostedRuntime.onSwap (loader : ModuleLoader) (files : Files) (held : Nat → Bool) (rt : HostedRuntime) (old : Nat)
    (next : Snapshot WasmConfig) : Except String HostedRuntime :=
  (loadSet loader files next.config).map fun set =>
    let modules := hostModules rt.created set.modules
    { rt with
      byVersion := (rt.byVersion.insert next.version modules).filter fun version _ =>
        decide (next.version ≤ version) || held version || version == old
      perEvent := next.config.perEventHooks
      created := rt.created + modules.length }

/-- A swap, with the files it reads, the versions that requests hold, and the version it replaces. -/
structure Swap where
  files : Files
  held : Nat → Bool
  old : Nat
  next : Snapshot WasmConfig

/-- A config whose modules do not load is refused, and leaves the runtime. -/
def HostedRuntime.step (loader : ModuleLoader) (rt : HostedRuntime) (swap : Swap) : Option HostedRuntime :=
  match rt.onSwap loader swap.files swap.held swap.old swap.next with
  | .error _ => some rt
  | .ok swapped => some swapped

/-- Every module of a version in the table runs on an engine that a watchdog ticks. -/
def HostedRuntime.Watched (rt : HostedRuntime) : Prop :=
  ∀ (version : Nat) (modules : List HostedModule), rt.byVersion[version]? = some modules →
    ∀ module ∈ modules, module.engine ∈ rt.watchdogs

/-- The swap is to a config without modules, or is refused. -/
def Swap.addsNoModule (loader : ModuleLoader) (swap : Swap) : Prop :=
  ∀ set, loadSet loader swap.files swap.next.config = .ok set → swap.next.config.modules = []

/-! ### Engines -/

theorem hostModules_module (created : Nat) (modules : List LoadedModule) :
    (hostModules created modules).map (·.module) = modules := by
  induction modules generalizing created with
  | nil => rfl
  | cons first rest ih => rw [hostModules, List.map_cons, ih]

theorem hostModules_length (created : Nat) (modules : List LoadedModule) :
    (hostModules created modules).length = modules.length := by
  rw [← hostModules_module created modules, List.length_map, hostModules_module]

/-- The engines of a set are new, and each module has its own. -/
theorem hostModules_engines (created : Nat) (modules : List LoadedModule) :
    (hostModules created modules).map (·.engine) = List.range' created modules.length := by
  induction modules generalizing created with
  | nil => rfl
  | cons first rest ih => rw [hostModules, List.map_cons, ih, List.length_cons, List.range'_succ]

theorem watchedModule_mem {modules : List HostedModule} {module : HostedModule}
    (watched : watchedModule modules = some module) : module ∈ modules := by
  unfold watchedModule at watched
  cases asked : modules.find? (·.module.implements .onRequest) with
  | some first =>
    rw [asked] at watched
    exact Option.some.inj watched ▸ List.mem_of_find?_eq_some asked
  | none =>
    rw [asked] at watched
    obtain ⟨first, -, named⟩ := Option.bind_eq_some_iff.mp watched
    exact List.mem_reverse.mp (List.mem_of_find?_eq_some named)

/-- A set with a module has one that is watched. -/
theorem watchedModule_singleton (module : HostedModule) : watchedModule [module] = some module := by
  unfold watchedModule
  cases asked : module.module.implements .onRequest with
  | true => simp [asked]
  | false => simp [asked, moduleNamed]

/-- A thread that was started ticks the engine of the module it was started for, and no other. -/
theorem mem_spawnWatchdog {spawns : Bool} {module : Option HostedModule} {engine : Nat} :
    engine ∈ spawnWatchdog spawns module ↔ spawns = true ∧ module.map (·.engine) = some engine := by
  cases spawns with
  | false => simp [spawnWatchdog]
  | true => simp [spawnWatchdog]

/-- The one thread is for an engine of the set. -/
theorem spawnWatchdog_engines {spawns : Bool} {modules : List LoadedModule} {engine : Nat}
    (ticks : engine ∈ spawnWatchdog spawns (watchedModule (hostModules 0 modules))) : engine < modules.length := by
  obtain ⟨-, ticked⟩ := mem_spawnWatchdog.mp ticks
  obtain ⟨module, chosen, rfl⟩ := Option.map_eq_some_iff.mp ticked
  have engines : module.engine ∈ List.range' 0 modules.length := by
    rw [← hostModules_engines]
    exact List.mem_map_of_mem (watchedModule_mem chosen)
  simpa using engines

/-- One thread is enough for no module, and for one. -/
theorem spawnWatchdog_covers_iff {spawns : Bool} {modules : List LoadedModule} :
    (∀ module ∈ hostModules 0 modules,
        module.engine ∈ spawnWatchdog spawns (watchedModule (hostModules 0 modules))) ↔
      modules = [] ∨ modules.length = 1 ∧ spawns = true := by
  match modules with
  | [] => simp [hostModules]
  | [only] => simp [hostModules, watchedModule_singleton, mem_spawnWatchdog]
  | first :: second :: rest =>
    refine iff_of_false (fun covered => ?_) (by simp)
    have ticksFirst := covered ⟨first, 0⟩ List.mem_cons_self
    have ticksSecond := covered ⟨second, 1⟩ (List.mem_cons_of_mem _ List.mem_cons_self)
    have zero := (mem_spawnWatchdog.mp ticksFirst).2
    rw [(mem_spawnWatchdog.mp ticksSecond).2] at zero
    cases zero

/-! ### The runtime without its engines -/

/-- The runtime that the proxy consults, when engines are left out. -/
structure HostedRuntime.Hosts (rt : HostedRuntime) (plain : WasmRuntime) : Prop where
  sets : ∀ version : Nat, plain.byVersion[version]? = rt.byVersion[version]?.map fun modules => ⟨modules.map (·.module)⟩
  perEvent : plain.perEvent = rt.perEvent
  breakGlass : plain.breakGlass = rt.breakGlass

section

variable {loader : ModuleLoader} {files : Files}

theorem bootstrap_hosts {spawns : Bool} {snap : Snapshot WasmConfig} {rt : HostedRuntime}
    (boots : HostedRuntime.bootstrap loader files spawns snap = .ok rt) :
    ∃ plain, WasmRuntime.bootstrap loader files snap = .ok plain ∧ rt.Hosts plain := by
  unfold HostedRuntime.bootstrap at boots
  unfold WasmRuntime.bootstrap
  cases loads : loadSet loader files snap.config with
  | error e => simp [loads, Except.map] at boots
  | ok set =>
    simp only [loads, Except.map, Except.ok.injEq] at boots
    subst boots
    refine ⟨_, rfl, fun version => ?_, rfl, rfl⟩
    by_cases same : snap.version = version
    · subst same
      simp [hostModules_module]
    · simp [same]

theorem onSwap_hosts {held : Nat → Bool} {rt swapped : HostedRuntime} {plain : WasmRuntime} (hosts : rt.Hosts plain)
    {old : Nat} {next : Snapshot WasmConfig} (swaps : rt.onSwap loader files held old next = .ok swapped) :
    ∃ after, plain.onSwap loader files held old next = .ok after ∧ swapped.Hosts after := by
  unfold HostedRuntime.onSwap at swaps
  unfold WasmRuntime.onSwap
  cases loads : loadSet loader files next.config with
  | error e => simp [loads, Except.map] at swaps
  | ok set =>
    simp only [loads, Except.map, Except.ok.injEq] at swaps
    subst swaps
    refine ⟨_, rfl, fun version => ?_, rfl, hosts.breakGlass⟩
    have known := hosts.sets version
    by_cases same : next.version = version
    · subst same
      simp [Option.filter, hostModules_module]
    · cases stored : rt.byVersion[version]? with
      | none =>
        rw [stored] at known
        simp [Std.TreeMap.getElem?_insert, same, stored, known]
      | some modules =>
        rw [stored] at known
        simp only [Std.TreeMap.getElem?_filter', Std.TreeMap.getElem?_insert, stored, known]
        simp [same, Option.filter]

/-! ### Watched engines -/

/-- A loaded set has as many modules as its config declares. -/
theorem loadSet_length {config : WasmConfig} {set : ModuleSet} (loads : loadSet loader files config = .ok set) :
    set.modules.length = config.modules.length :=
  (loadSet_enforces loads).length_eq.symm

/-- The engines that are ticked were created before. -/
def HostedRuntime.Ticked (rt : HostedRuntime) : Prop := ∀ engine ∈ rt.watchdogs, engine < rt.created

theorem onSwap_step {rt next : HostedRuntime} {swap : Swap} (stepped : rt.step loader swap = some next) :
    (next = rt ∧ ∃ e, loadSet loader swap.files swap.next.config = .error e) ∨
      ∃ set, loadSet loader swap.files swap.next.config = .ok set ∧
        next.watchdogs = rt.watchdogs ∧ rt.created ≤ next.created ∧
        next.byVersion[swap.next.version]? = some (hostModules rt.created set.modules) ∧
        ∀ (version : Nat) (modules : List HostedModule), version ≠ swap.next.version →
          next.byVersion[version]? = some modules → rt.byVersion[version]? = some modules := by
  unfold HostedRuntime.step HostedRuntime.onSwap at stepped
  cases loads : loadSet loader swap.files swap.next.config with
  | error e =>
    simp only [loads, Except.map, Option.some.injEq] at stepped
    exact .inl ⟨stepped.symm, e, rfl⟩
  | ok set =>
    simp only [loads, Except.map, Option.some.injEq] at stepped
    subst stepped
    refine .inr ⟨set, rfl, rfl, Nat.le_add_right _ _, ?_, ?_⟩
    · simp [Option.filter]
    · intro version modules differ entered
      simp only [Std.TreeMap.getElem?_filter', Std.TreeMap.getElem?_insert] at entered
      have unequal : compare swap.next.version version ≠ .eq := by
        simpa [compare_eq_iff_eq] using differ.symm
      rw [if_neg unequal] at entered
      exact (Option.filter_eq_some_iff.mp entered).1

/-- A swap keeps every module on a watched engine exactly when it adds none. -/
theorem watched_step {rt next : HostedRuntime} {swap : Swap} (ticked : rt.Ticked) (watched : rt.Watched)
    (stepped : rt.step loader swap = some next) :
    next.Ticked ∧ (next.Watched ↔ swap.addsNoModule loader) := by
  rcases onSwap_step stepped with ⟨rfl, e, refused⟩ | ⟨set, loads, watchdogs, created, entered, others⟩
  · refine ⟨ticked, iff_of_true watched fun set loads => ?_⟩
    rw [refused] at loads
    cases loads
  · refine ⟨fun engine ticks => ?_, fun covered other same => ?_, fun none version modules stored module inside => ?_⟩
    · rw [watchdogs] at ticks
      exact Nat.lt_of_lt_of_le (ticked engine ticks) created
    · rw [loads, Except.ok.injEq] at same
      subst same
      rw [← List.length_eq_zero_iff, ← loadSet_length loads, List.length_eq_zero_iff]
      cases declared : set.modules with
      | nil => rfl
      | cons first rest =>
        rw [declared, hostModules] at entered
        have ticks := covered swap.next.version _ entered ⟨first, rt.created⟩ List.mem_cons_self
        rw [watchdogs] at ticks
        exact absurd (ticked rt.created ticks) (Nat.lt_irrefl _)
    · have empty : set.modules = [] := by
        rw [← List.length_eq_zero_iff, loadSet_length loads, none set loads, List.length_nil]
      rw [empty, hostModules] at entered
      by_cases same : version = swap.next.version
      · subst same
        rw [entered, Option.some.injEq] at stored
        subst stored
        cases inside
      · rw [watchdogs]
        exact watched version modules (others version modules same stored) module inside

/-- The modules of a runtime that boots are watched when there is one, with its thread, or none. -/
theorem watched_bootstrap {spawns : Bool} {snap : Snapshot WasmConfig} {rt : HostedRuntime}
    (boots : HostedRuntime.bootstrap loader files spawns snap = .ok rt) :
    rt.Ticked ∧ (rt.Watched ↔ snap.config.modules = [] ∨ snap.config.modules.length = 1 ∧ spawns = true) := by
  unfold HostedRuntime.bootstrap at boots
  cases loads : loadSet loader files snap.config with
  | error e => simp [loads, Except.map] at boots
  | ok set =>
    simp only [loads, Except.map, Except.ok.injEq] at boots
    subst boots
    have sizes := loadSet_length loads
    refine ⟨fun engine ticks => ?_, ?_⟩
    · rw [hostModules_length]
      exact spawnWatchdog_engines ticks
    · rw [← sizes, ← List.length_eq_zero_iff, ← sizes, List.length_eq_zero_iff, ← spawnWatchdog_covers_iff]
      constructor
      · intro watched
        exact watched snap.version (hostModules 0 set.modules) (by simp)
      · intro covered version modules stored
        by_cases same : snap.version = version
        · subst same
          obtain rfl : hostModules 0 set.modules = modules := by simpa using stored
          exact covered
        · simp [same] at stored

end

/-- In every state that a runtime reaches by swaps, each module of each version runs on an engine that a watchdog ticks,
    if and only if its first config has no module, or one whose thread was started, and every later one that is not
    refused has none. -/
theorem watched_iff (loader : ModuleLoader) (files : Files) (spawns : Bool) (snap : Snapshot WasmConfig)
    (booted : HostedRuntime) (boots : HostedRuntime.bootstrap loader files spawns snap = .ok booted)
    (swaps : List Swap) (last : HostedRuntime)
    (executed : Runs.exec (HostedRuntime.step loader) booted swaps = some last) :
    (∀ first rest reached, swaps = first ++ rest →
        Runs.exec (HostedRuntime.step loader) booted first = some reached → reached.Watched) ↔
      (snap.config.modules = [] ∨ snap.config.modules.length = 1 ∧ spawns = true) ∧
        ∀ swap ∈ swaps, swap.addsNoModule loader := by
  obtain ⟨ticked, initially⟩ := watched_bootstrap boots
  have preserved : Runs.Preserves (HostedRuntime.step loader) HostedRuntime.Ticked := by
    intro rt swap next ticked stepped
    rcases onSwap_step stepped with ⟨rfl, -⟩ | ⟨set, -, watchdogs, created, -⟩
    · exact ticked
    · intro engine ticks
      rw [watchdogs] at ticks
      exact Nat.lt_of_lt_of_le (ticked engine ticks) created
  have keptIff : ∀ rt swap next, rt.Ticked ∧ rt.Watched → HostedRuntime.step loader rt swap = some next →
      (next.Ticked ∧ next.Watched ↔ swap.addsNoModule loader) := by
    intro rt swap next both stepped
    obtain ⟨still, watched⟩ := watched_step both.1 both.2 stepped
    rw [and_iff_right still, watched]
  by_cases watched : booted.Watched
  · rw [and_iff_right (initially.mp watched)]
    rw [← Runs.along_actions_iff executed, Runs.along_iff_states keptIff ⟨ticked, watched⟩ executed]
    constructor
    · intro states first rest reached parts ran
      exact ⟨Runs.exec_preserves preserved ticked ran, states first rest reached parts ran⟩
    · exact fun states first rest reached parts ran => (states first rest reached parts ran).2
  · refine iff_of_false (fun states => watched (states [] swaps booted rfl rfl)) fun met => watched ?_
    exact initially.mpr met.1

/-- A node that boots with one module and is swapped to a config without any. -/
def emptySwap : Swap := ⟨eventFiles, fun _ => false, 1, ⟨⟨[], false⟩, 2, "none"⟩⟩

theorem empty_swap_watched :
    ∃ booted last, HostedRuntime.bootstrap eventHost.loader eventFiles true ⟨eventModule true, 1, "on"⟩ = .ok booted ∧
      Runs.exec (HostedRuntime.step eventHost.loader) booted [emptySwap] = some last ∧ booted.Watched ∧
        last.Watched := by
  have ran : ((HostedRuntime.bootstrap eventHost.loader eventFiles true ⟨eventModule true, 1, "on"⟩).toOption.bind
      fun booted => Runs.exec (HostedRuntime.step eventHost.loader) booted [emptySwap]).isSome = true := by
    decide +kernel
  obtain ⟨last, reached⟩ := Option.isSome_iff_exists.mp ran
  obtain ⟨booted, started, executed⟩ := Option.bind_eq_some_iff.mp reached
  have boots : HostedRuntime.bootstrap eventHost.loader eventFiles true ⟨eventModule true, 1, "on"⟩ = .ok booted := by
    cases result : HostedRuntime.bootstrap eventHost.loader eventFiles true ⟨eventModule true, 1, "on"⟩ with
    | error e => simp [result, Except.toOption] at started
    | ok rt =>
      simp only [result, Except.toOption, Option.some.injEq] at started
      rw [started]
  have watched := (watched_iff eventHost.loader eventFiles true ⟨eventModule true, 1, "on"⟩ booted boots [emptySwap]
    last executed).mpr ⟨.inr ⟨rfl, rfl⟩, fun swap listed _ _ => by rw [List.mem_singleton.mp listed]; rfl⟩
  exact ⟨booted, last, boots, executed, watched [] [emptySwap] booted rfl rfl,
    watched [emptySwap] [] last rfl executed⟩

/-- A node boots with two modules, and the engine of the second one is never ticked. -/
theorem second_module_unwatched :
    ¬ ∀ loader files snap booted, HostedRuntime.bootstrap loader files true snap = .ok booted → ∀ swaps last,
      Runs.exec (HostedRuntime.step loader) booted swaps = some last → last.Watched := by
  intro claimed
  have engines : (HostedRuntime.bootstrap twoModulesHost.loader twoModulesFiles true ⟨twoModules, 1, "v1"⟩).toOption.map
      (fun rt => (rt.byVersion[1]?.map (·.map (·.engine)), rt.watchdogs)) = some (some [0, 1], [0]) := by
    decide +kernel
  cases boots : HostedRuntime.bootstrap twoModulesHost.loader twoModulesFiles true ⟨twoModules, 1, "v1"⟩ with
  | error e => simp [boots, Except.toOption] at engines
  | ok booted =>
    simp only [boots, Except.toOption, Option.map_some, Option.some.injEq, Prod.mk.injEq] at engines
    obtain ⟨compiled, watchdogs⟩ := engines
    obtain ⟨modules, stored, engines⟩ := Option.map_eq_some_iff.mp compiled
    have second : 1 ∈ modules.map (·.engine) := by simp [engines]
    obtain ⟨module, inside, engine⟩ := List.mem_map.mp second
    have ticks := claimed _ _ _ booted boots [] booted rfl 1 modules stored module inside
    rw [engine, watchdogs] at ticks
    exact absurd ticks (by decide)

end SmallGateway
