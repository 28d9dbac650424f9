import SmallGateway.Lib.Runs
import SmallGateway.Reload
import SmallGateway.WasmModules

/-!
Which policy modules a request meets (`gatewayd/src/{main,wasm_runtime,reload,client}.rs`, `new_ctx` and the end
of `request_filter` in `gatewayd/src/proxy.rs`). A node that reads its config from a file has a table from
config versions to module sets. A swap loads the set of the new config, enters it before the snapshot cell
advances, and prunes the versions that nobody holds. A request loads the snapshot first and looks its set up
afterwards. A node that gets its config from the control plane has no table.

Requests and swaps interleave freely: a request loads, binds, reads the event setting and is filtered in four
steps, a reload has two. Every config that the node accepted is kept in `Node.accepted`, newest first; the code
has no such list, and no step reads it but to count, at a binding, the configs that are newer than the request's.
The main result is that in file mode a request that is forwarded has passed the modules its config declares,
when it bound no later than the second swap after its load (`forwarded_after_declared_policy`).
-/

namespace SmallGateway

/-! ### Module sets of a config -/

/-- The files a node can read, or why not. -/
abbrev Files := String → Except String (List UInt8)

def WasmModule.manifest (declared : WasmModule) (bytes : List UInt8) : ModuleManifest :=
  ⟨declared.name, bytes, declared.signature, declared.hooks, declared.schema⟩

def WasmModule.toManifest (files : Files) (declared : WasmModule) : Except String ModuleManifest :=
  match files declared.source with
  | .error e => .error ("wasm module " ++ Text.debugStr declared.name ++ ": cannot read " ++ e)
  | .ok bytes => .ok (declared.manifest bytes)

/-- The whole set of a config, or why it cannot be had. -/
def loadSet (loader : ModuleLoader) (files : Files) (config : WasmConfig) : Except String ModuleSet :=
  if config.modules.isEmpty then .ok .empty
  else
    match config.modules.mapM (WasmModule.toManifest files) with
    | .error e => .error e
    | .ok manifests => (loader.load manifests).mapError LoadError.toText

/-- The set holds exactly the modules that the config declares, each verified and compiled from bytes that were
    read for it. -/
def Enforces (loader : ModuleLoader) (config : WasmConfig) (set : ModuleSet) : Prop :=
  List.Forall₂ (fun declared module => ∃ bytes, Loaded loader (declared.manifest bytes) module)
    config.modules set.modules

theorem toManifest_spec {files : Files} {declared : WasmModule} {manifest : ModuleManifest}
    (reads : declared.toManifest files = .ok manifest) : ∃ bytes, manifest = declared.manifest bytes := by
  unfold WasmModule.toManifest at reads
  split at reads
  · cases reads
  · cases reads
    exact ⟨_, rfl⟩

theorem loadSet_enforces {loader : ModuleLoader} {files : Files} {config : WasmConfig} {set : ModuleSet}
    (loads : loadSet loader files config = .ok set) : Enforces loader config set := by
  unfold loadSet at loads
  split at loads
  · rename_i empty
    cases loads
    rw [Enforces, List.isEmpty_iff.mp empty]
    exact .nil
  · split at loads
    · cases loads
    · rename_i manifests mapped
      cases loaded : loader.load manifests with
      | error e => simp [loaded, Except.mapError] at loads
      | ok modules =>
        simp only [loaded, Except.mapError, Except.ok.injEq] at loads
        subst loads
        refine (Fallible.forall₂_comp (Fallible.forall₂_of_mapM_ok mapped) (load_loaded loaded)).imp ?_
        rintro declared module ⟨manifest, reads, stands⟩
        obtain ⟨bytes, rfl⟩ := toManifest_spec reads
        exact ⟨bytes, stands⟩

/-! ### The table -/

/-- An operator's pin of a module set until a second in time. -/
structure BreakGlass where
  pinned : ModuleSet
  «until» : Nat

def BreakGlass.active (glass : BreakGlass) (now : Nat) : Bool := now < glass.until

/-- What the proxy consults: the module sets by config version, the event setting, and a pin. -/
structure WasmRuntime where
  byVersion : Std.TreeMap Nat ModuleSet
  perEvent : Bool
  breakGlass : Option BreakGlass

def WasmRuntime.bootstrap (loader : ModuleLoader) (files : Files) (snap : Snapshot WasmConfig) :
    Except String WasmRuntime :=
  (loadSet loader files snap.config).map fun set =>
    ⟨Std.TreeMap.empty.insert snap.version set, snap.config.perEventHooks, none⟩

/-- Where a request got its modules from: a version of the table, nowhere, or a pin. -/
inductive Binding
  | table (version : Nat) (set : ModuleSet)
  | missing
  | pinned (set : ModuleSet)
  deriving DecidableEq

def Binding.set : Binding → ModuleSet
  | .table _ set => set
  | .missing => .empty
  | .pinned set => set

/-- The set that belongs to a version. -/
def WasmRuntime.desired (rt : WasmRuntime) (version : Nat) : Binding :=
  match rt.byVersion[version]? with
  | some set => .table version set
  | none => .missing

/-- Binds the set of a version, or what is pinned. An unknown version binds the empty set. -/
def WasmRuntime.bind (rt : WasmRuntime) (version now : Nat) : Binding :=
  match rt.breakGlass with
  | some glass => if glass.active now then .pinned glass.pinned else rt.desired version
  | none => rt.desired version

theorem bind_cases (rt : WasmRuntime) (version now : Nat) :
    (∃ set, rt.bind version now = .pinned set) ∨
      (∃ set, rt.bind version now = .table version set ∧ rt.byVersion[version]? = some set) ∨
      (rt.bind version now = .missing ∧ rt.byVersion[version]? = none) := by
  have unpinned : (∃ set, rt.desired version = .table version set ∧ rt.byVersion[version]? = some set) ∨
      (rt.desired version = .missing ∧ rt.byVersion[version]? = none) := by
    unfold WasmRuntime.desired
    cases stored : rt.byVersion[version]? with
    | none => exact .inr ⟨rfl, rfl⟩
    | some set => exact .inl ⟨set, rfl, rfl⟩
  unfold WasmRuntime.bind
  split
  · split
    · exact .inl ⟨_, rfl⟩
    · exact .inr unpinned
  · exact .inr unpinned

/-- Loads the set of the new snapshot, enters it, and drops the older versions whose sets only the table holds.
    The set of the version that is replaced is still in use here. -/
def WasmRuntime.onSwap (loader : ModuleLoader) (files : Files) (held : Nat → Bool) (rt : WasmRuntime)
    (old : Nat) (next : Snapshot WasmConfig) : Except String WasmRuntime :=
  (loadSet loader files next.config).map fun set =>
    { rt with
      byVersion := (rt.byVersion.insert next.version set).filter fun version _ =>
        decide (next.version ≤ version) || held version || version == old
      perEvent := next.config.perEventHooks }

theorem onSwap_spec {loader : ModuleLoader} {files : Files} {held : Nat → Bool} {rt swapped : WasmRuntime}
    {old : Nat} {next : Snapshot WasmConfig} (swaps : rt.onSwap loader files held old next = .ok swapped)
    (newer : old < next.version) :
    (∃ set, swapped.byVersion[next.version]? = some set ∧ Enforces loader next.config set) ∧
      swapped.byVersion[old]? = rt.byVersion[old]? ∧
      ∀ version, version ≠ next.version → ∀ set, swapped.byVersion[version]? = some set →
        rt.byVersion[version]? = some set := by
  unfold WasmRuntime.onSwap at swaps
  cases loads : loadSet loader files next.config with
  | error e => simp [loads, Except.map] at swaps
  | ok set =>
    simp only [loads, Except.map, Except.ok.injEq] at swaps
    subst swaps
    refine ⟨⟨set, ?_, loadSet_enforces loads⟩, ?_, ?_⟩
    · simp
    · have different : next.version ≠ old := by omega
      cases stored : rt.byVersion[old]? <;> simp [Std.TreeMap.getElem?_insert, different, stored]
    · intro version different found entered
      simp only [Std.TreeMap.getElem?_filter', Std.TreeMap.getElem?_insert] at entered
      have unequal : compare next.version version ≠ .eq := by
        simpa [compare_eq_iff_eq] using different.symm
      rw [if_neg unequal] at entered
      exact (Option.filter_eq_some_iff.mp entered).1

/-! ### The node -/

/-- How far a request has got. -/
inductive Phase
  | loaded
  | bound
  | ready
  | forwarded (headerSet : List (String × String)) (headerRemove : List String)
  | refused
  | ended
  deriving DecidableEq

/-- The context of a request: the snapshot it loaded, the modules it bound and how many newer configs the node had
    accepted by then, whether its events reach the modules, and the calls its request chain made. -/
structure ReqCtx where
  snap : Snapshot WasmConfig
  phase : Phase
  binding : Option Binding
  newer : Nat
  perEvent : Bool
  calls : List (LoadedModule × Answer)

/-- The node's answer to a push. -/
inductive PushAnswer
  | ack (fleetVersion : Nat) (boundHash : String)
  | nack (fleetVersion : Nat) (renderHash reason : String)
  deriving DecidableEq

/-- What a push says about itself. -/
structure PushHead where
  fleetVersion : Nat
  renderHash : String

structure Node where
  reloader : Reloader WasmConfig
  /-- The snapshot that a reload still has to store, and the push it came with. The reload holds the lock. -/
  storing : Option (Snapshot WasmConfig × Option PushHead)
  wasm : Option WasmRuntime
  requests : List ReqCtx
  answers : List PushAnswer
  accepted : List (Snapshot WasmConfig)

/-- What the node rests on. -/
structure NodeHost where
  texts : ConfigTexts WasmConfig
  loader : ModuleLoader

/-- File mode: the first config is rendered and its modules are loaded before the node serves. -/
def Node.bootstrapFile (host : NodeHost) (files : Files) (text : String) : Except String Node :=
  match Reloader.bootstrap host.texts text with
  | .error e => .error e
  | .ok reloader =>
    (WasmRuntime.bootstrap host.loader files reloader.shared).map fun rt =>
      ⟨reloader, none, some rt, [], [], [reloader.shared]⟩

/-- Control-plane mode: the first push is rendered and acknowledged. There is no runtime. -/
def Node.bootstrapPush (host : NodeHost) (push : PushHead) (text : String) : Except String Node :=
  (Reloader.bootstrap host.texts text).map fun reloader =>
    ⟨reloader, none, none, [], [.ack push.fleetVersion reloader.shared.contentHash], [reloader.shared]⟩

/-- A request that is not over holds the set it took from the table. -/
def ReqCtx.holds (request : ReqCtx) (version : Nat) : Bool :=
  request.phase ≠ .ended && (match request.binding with
    | some (.table bound _) => bound == version
    | _ => false)

def Node.held (s : Node) (version : Nat) : Bool := s.requests.any (·.holds version)

/-- The swap hook: there is one where there is a runtime. -/
def Node.hook (host : NodeHost) (files : Files) (s : Node) (old : Nat) (next : Snapshot WasmConfig) :
    Except String (Option WasmRuntime) :=
  match s.wasm with
  | none => .ok none
  | some rt => (rt.onSwap host.loader files s.held old next).map some

/-- What a push is answered, given the outcome and the hash that is active then. -/
def PushHead.answer (push : PushHead) (outcome : ReloadOutcome) (boundHash : String) : PushAnswer :=
  match outcome with
  | .swapped _ _ | .noOp _ => .ack push.fleetVersion boundHash
  | .rejected active =>
    .nack push.fleetVersion push.renderHash
      ("pushed config failed local validation; still serving local cfg=v" ++ toString active)

def Node.answer (s : Node) (push : Option PushHead) (outcome : ReloadOutcome) : Node :=
  { s with answers := s.answers ++ push.toList.map (·.answer outcome s.reloader.shared.contentHash) }

/-- A reload up to the store. -/
def Node.begin (host : NodeHost) (files : Files) (s : Node) (push : Option PushHead) (text : String) : Node :=
  match s.reloader.begin host.texts (s.hook host files) text with
  | (reloader, .done outcome) => { s with reloader }.answer push outcome
  | (reloader, .storing next wasm) =>
    { s with reloader, wasm, storing := some (next, push), accepted := next :: s.accepted }

inductive Action
  /-- A file trigger, with the text of the file when it can be read. -/
  | reload (files : Files) (text : Option String)
  /-- A push, with its text or why its bytes are no text. -/
  | push (head : PushHead) (text : Except String String)
  | store
  | load
  | bind (i now : Nat)
  | readPerEvent (i : Nat)
  /-- The end of the request filter: whether the request passed what comes before the modules, and what the
      guests answer. -/
  | filter (i : Nat) (passes : Bool) (view : RequestView) (guest : LoadedModule → RequestView → Answer)
  | finish (i : Nat)
  | breakGlass («until» : Nat)

/-- The snapshots among the accepted ones that are newer than a version. -/
def Node.newerThan (s : Node) (version : Nat) : Nat :=
  s.accepted.countP fun snap => decide (version < snap.version)

def ReqCtx.bind (s : Node) (request : ReqCtx) (now : Nat) : ReqCtx :=
  { request with
    phase := .bound
    binding := s.wasm.map fun rt => rt.bind request.snap.version now
    newer := s.newerThan request.snap.version }

def ReqCtx.readPerEvent (s : Node) (request : ReqCtx) : ReqCtx :=
  { request with
    phase := .ready
    perEvent := (s.wasm.map WasmRuntime.perEvent).getD false &&
      (request.binding.map fun binding => binding.set.wants .onResponseEvent).getD false }

def ReqCtx.filter (request : ReqCtx) (passes : Bool) (view : RequestView)
    (guest : LoadedModule → RequestView → Answer) : ReqCtx :=
  if !passes then { request with phase := .refused }
  else
    match request.binding with
    | none => { request with phase := .forwarded [] [] }
    | some binding =>
      match applyOnRequest guest binding.set view with
      | (none, calls) => { request with phase := .forwarded [] [], calls }
      | (some (.proceed set remove), calls) => { request with phase := .forwarded set remove, calls }
      | (some (.reject _), calls) => { request with phase := .refused, calls }

/-- The request at a place takes a step, when it is in a phase that has it. -/
def Node.advance (s : Node) (i : Nat) (ready : Phase → Bool) (next : ReqCtx → ReqCtx) : Option Node :=
  match s.requests[i]? with
  | none => none
  | some request => if ready request.phase then some { s with requests := s.requests.set i (next request) } else none

def Node.step (host : NodeHost) (s : Node) : Action → Option Node
  | .reload files text =>
    if s.storing.isSome || s.wasm.isNone then none
    else
      match text with
      -- A file that cannot be read is rejected before anything is rendered.
      | none => some s
      | some text => some (s.begin host files none text)
  | .push head text =>
    if s.storing.isSome || s.wasm.isSome then none
    else
      match text with
      | .error e =>
        some { s with
          answers := s.answers ++ [.nack head.fleetVersion head.renderHash ("pushed config is not utf-8: " ++ e)] }
      | .ok text => some (s.begin host (fun _ => .error "") (some head) text)
  | .store =>
    match s.storing with
    | none => none
    | some (next, push) =>
      let (reloader, outcome) := s.reloader.store next
      some ({ s with reloader, storing := none }.answer push outcome)
  | .load => some { s with requests := s.requests ++ [⟨s.reloader.shared, .loaded, none, 0, false, []⟩] }
  | .bind i now => s.advance i (· == .loaded) fun request => request.bind s now
  | .readPerEvent i => s.advance i (· == .bound) fun request => request.readPerEvent s
  | .filter i passes view guest => s.advance i (· == .ready) fun request => request.filter passes view guest
  | .finish i => s.advance i (· != .ended) fun request => { request with phase := .ended }
  | .breakGlass «until» =>
    match s.wasm with
    | none => none
    | some rt => some { s with wasm := some { rt with breakGlass := some ⟨.empty, «until»⟩ } }

/-! ### What a step can do -/

/-- A reload starts with nothing waiting to be stored, and does nothing over a file that cannot be read. -/
theorem step_reload {host : NodeHost} {s t : Node} {files : Files} {text : Option String}
    (stepped : s.step host (.reload files text) = some t) :
    s.storing = none ∧ (t = s ∨ ∃ read, text = some read ∧ t = s.begin host files none read) := by
  simp only [Node.step] at stepped
  split at stepped
  · cases stepped
  · rename_i enabled
    have free : s.storing = none := by
      cases storing : s.storing <;> simp [storing] at enabled ⊢
    refine ⟨free, ?_⟩
    cases text with
    | none =>
      cases stepped
      exact .inl rfl
    | some read =>
      cases stepped
      exact .inr ⟨read, rfl, rfl⟩

/-- What is stored is what waited, and a push gets its answer then. -/
theorem step_store {host : NodeHost} {s t : Node} (stepped : s.step host .store = some t) :
    ∃ next push, s.storing = some (next, push) ∧
      t = { s with reloader := (s.reloader.store next).1, storing := none }.answer push (s.reloader.store next).2 := by
  simp only [Node.step] at stepped
  split at stepped
  · cases stepped
  · rename_i next push storing
    cases stepped
    exact ⟨next, push, storing, rfl⟩

theorem step_breakGlass {host : NodeHost} {s t : Node} {«until» : Nat}
    (stepped : s.step host (.breakGlass «until») = some t) :
    ∃ rt, s.wasm = some rt ∧ t = { s with wasm := some { rt with breakGlass := some ⟨.empty, «until»⟩ } } := by
  simp only [Node.step] at stepped
  split at stepped
  · cases stepped
  · rename_i rt wired
    cases stepped
    exact ⟨rt, wired, rfl⟩

/-- Only the request at the place moves, from a phase that has the step. -/
theorem advance_cases {s t : Node} {i : Nat} {ready : Phase → Bool} {next : ReqCtx → ReqCtx}
    (advances : s.advance i ready next = some t) :
    ∃ request, s.requests[i]? = some request ∧ ready request.phase = true ∧
      t = { s with requests := s.requests.set i (next request) } := by
  unfold Node.advance at advances
  split at advances
  · cases advances
  · rename_i request found
    split at advances
    · rename_i isReady
      cases advances
      exact ⟨request, found, isReady, rfl⟩
    · cases advances

/-- The filter decides a phase and records calls. -/
theorem filter_cases (request : ReqCtx) (passes : Bool) (view : RequestView)
    (guest : LoadedModule → RequestView → Answer) :
    ∃ phase calls, request.filter passes view guest = { request with phase, calls } ∧ phase ≠ .loaded := by
  unfold ReqCtx.filter
  split
  · exact ⟨.refused, request.calls, rfl, by simp⟩
  · split
    · exact ⟨.forwarded [] [], request.calls, rfl, by simp⟩
    · split
      · exact ⟨_, _, rfl, by simp⟩
      · exact ⟨_, _, rfl, by simp⟩
      · exact ⟨_, _, rfl, by simp⟩

/-! ### What a binding can miss -/

/-- What holds of a request at any time: a set it took from the table enforces its config, a version it missed
    had been replaced twice, and it is forwarded only past the modules it bound. -/
structure ReqCtx.Sound (loader : ModuleLoader) (request : ReqCtx) : Prop where
  enforces : ∀ version set, request.binding = some (.table version set) →
    Enforces loader request.snap.config set
  replaced : request.binding = some .missing → 2 ≤ request.newer
  bound : request.phase ≠ .loaded → request.phase ≠ .ended → request.binding.isSome
  passed : ∀ headerSet headerRemove, request.phase = .forwarded headerSet headerRemove →
    ∀ binding, request.binding = some binding → Passed (binding.set.forHook .onRequest) request.calls

/-- The table agrees with the configs the node accepted: the newest ones are the one that waits to be stored and
    the one that is served, in this order; every set enforces its config, and the sets of the two newest are
    there. -/
structure Node.Coupled (host : NodeHost) (s : Node) : Prop where
  wired : s.wasm.isSome
  recent : ∃ older, s.accepted = s.storing.toList.map Prod.fst ++ s.reloader.shared :: older
  ordered : s.accepted.Pairwise fun newer older => older.version < newer.version
  counted : ∀ snap ∈ s.accepted, snap.version ≤ s.reloader.rendered
  entered : ∀ rt, s.wasm = some rt → ∀ snap ∈ s.accepted, ∀ set,
    rt.byVersion[snap.version]? = some set → Enforces host.loader snap.config set
  kept : ∀ rt, s.wasm = some rt → ∀ snap ∈ s.accepted.take 2, (rt.byVersion[snap.version]?).isSome
  loaded : ∀ request ∈ s.requests, request.snap ∈ s.accepted
  sound : ∀ request ∈ s.requests, request.Sound host.loader

theorem Node.Coupled.shared_mem {host : NodeHost} {s : Node} (coupled : s.Coupled host) :
    s.reloader.shared ∈ s.accepted := by
  obtain ⟨older, accepted⟩ := coupled.recent
  simp [accepted]

/-- A snapshot that is not among the two newest is older than both. -/
theorem two_newer {accepted : List (Snapshot WasmConfig)} {snap : Snapshot WasmConfig}
    (ordered : accepted.Pairwise fun newer older => older.version < newer.version) (inside : snap ∈ accepted)
    (old : snap ∉ accepted.take 2) :
    2 ≤ accepted.countP fun other => decide (snap.version < other.version) := by
  match accepted with
  | [] => simp at inside
  | [first] => exact absurd inside (by simpa using old)
  | first :: second :: rest =>
    have later : snap ∈ rest := by
      simp only [List.take_succ_cons, List.take_zero, List.mem_cons, List.not_mem_nil, or_false, not_or] at old
      simpa [old.1, old.2] using inside
    have ⟨belowFirst, others⟩ := List.pairwise_cons.mp ordered
    have belowSecond := (List.pairwise_cons.mp others).1 snap later
    have below := belowFirst snap (List.mem_cons_of_mem _ later)
    simp only [List.countP_cons, below, belowSecond, decide_true, if_true]
    omega

/-- Binding is sound: the version that a request loaded has its own set, unless two newer ones replaced it. -/
theorem bind_sound {host : NodeHost} {s : Node} (coupled : s.Coupled host) {request : ReqCtx}
    (inside : request ∈ s.requests) (now : Nat) : (request.bind s now).Sound host.loader := by
  obtain ⟨rt, wired⟩ := Option.isSome_iff_exists.mp coupled.wired
  have accepted := coupled.loaded request inside
  refine ⟨?_, ?_, ?_, ?_⟩
  · intro version set bound
    simp only [ReqCtx.bind, wired, Option.map_some, Option.some.injEq] at bound
    rcases bind_cases rt request.snap.version now with ⟨pin, pinned⟩ | ⟨found, table, stored⟩ | ⟨missing, -⟩
    · rw [pinned] at bound
      cases bound
    · rw [table] at bound
      cases bound
      exact coupled.entered rt wired _ accepted set stored
    · rw [missing] at bound
      cases bound
  · intro bound
    simp only [ReqCtx.bind, wired, Option.map_some, Option.some.injEq] at bound
    rcases bind_cases rt request.snap.version now with ⟨pin, pinned⟩ | ⟨found, table, -⟩ | ⟨-, absent⟩
    · rw [pinned] at bound
      cases bound
    · rw [table] at bound
      cases bound
    · have old : request.snap ∉ s.accepted.take 2 := by
        intro newest
        have stored := coupled.kept rt wired _ newest
        simp [absent] at stored
      exact two_newer coupled.ordered accepted old
  · intro _ _
    simp [ReqCtx.bind, wired]
  · intro headerSet headerRemove forwarded
    cases forwarded

/-- A request that has bound its modules stays sound in another phase, when calls that let it through have
    passed the modules. -/
theorem ReqCtx.Sound.moved {loader : ModuleLoader} {request : ReqCtx} (sound : request.Sound loader)
    {phase : Phase} {calls : List (LoadedModule × Answer)} (bound : phase = .ended ∨ request.binding.isSome)
    (past : ∀ headerSet headerRemove, phase = .forwarded headerSet headerRemove →
      ∀ binding, request.binding = some binding → Passed (binding.set.forHook .onRequest) calls) :
    ReqCtx.Sound loader { request with phase, calls } :=
  ⟨sound.enforces, sound.replaced, fun _ running => bound.resolve_left running, past⟩

theorem readPerEvent_sound {loader : ModuleLoader} {request : ReqCtx} (sound : request.Sound loader)
    (isBound : request.phase = .bound) (s : Node) : (request.readPerEvent s).Sound loader := by
  refine ⟨sound.enforces, sound.replaced, ?_, ?_⟩
  · intro _ _
    exact sound.bound (by simp [isBound]) (by simp [isBound])
  · intro headerSet headerRemove forwarded
    cases forwarded

/-- A request that the filter lets through has passed the modules it bound. -/
theorem filter_sound {loader : ModuleLoader} {request : ReqCtx} (sound : request.Sound loader)
    (isReady : request.phase = .ready) (passes : Bool) (view : RequestView)
    (guest : LoadedModule → RequestView → Answer) : (request.filter passes view guest).Sound loader := by
  have isSome := sound.bound (by simp [isReady]) (by simp [isReady])
  unfold ReqCtx.filter
  split
  · exact sound.moved (.inr isSome) (by simp)
  · split
    · rename_i unbound
      simp [unbound] at isSome
    · rename_i binding bound
      have passed := @applyOnRequest_passed guest binding.set view
      split
      · rename_i calls applied
        refine sound.moved (.inr isSome) fun _ _ _ other same => ?_
        rw [bound, Option.some.injEq] at same
        have past := passed (by simp [applied])
        rwa [applied, same] at past
      · rename_i set remove calls applied
        refine sound.moved (.inr isSome) fun _ _ _ other same => ?_
        rw [bound, Option.some.injEq] at same
        have past := passed (by simp [applied])
        rwa [applied, same] at past
      · exact sound.moved (.inr isSome) (by simp)

/-! ### Runs -/

theorem coupled_bootstrapFile {host : NodeHost} {files : Files} {text : String} {booted : Node}
    (boots : Node.bootstrapFile host files text = .ok booted) : booted.Coupled host := by
  unfold Node.bootstrapFile at boots
  split at boots
  · cases boots
  · rename_i reloader first
    obtain ⟨-, version, -, rendered⟩ := Reloader.bootstrap_spec first
    unfold WasmRuntime.bootstrap at boots
    cases loads : loadSet host.loader files reloader.shared.config with
    | error e => simp [loads, Except.map] at boots
    | ok set =>
      simp only [loads, Except.map, Except.ok.injEq] at boots
      subst boots
      refine ⟨rfl, ⟨[], rfl⟩, by simp, by simp [version, rendered], ?_, ?_, by simp, by simp⟩
      · rintro rt wired snap inside found stored
        simp only [Option.some.injEq] at wired
        subst wired
        simp only [List.mem_singleton] at inside
        subst inside
        simp only [Std.TreeMap.getElem?_insert_self, Option.some.injEq] at stored
        exact stored ▸ loadSet_enforces loads
      · rintro rt wired snap inside
        simp only [Option.some.injEq] at wired
        subst wired
        simp only [List.take_succ_cons, List.take_nil, List.mem_singleton] at inside
        simp [inside]

/-- A request that advances stays with its snapshot, and the node stays coupled when it stays sound. -/
theorem coupled_advance {host : NodeHost} {s t : Node} (coupled : s.Coupled host) {i : Nat}
    {ready : Phase → Bool} {next : ReqCtx → ReqCtx} (advances : s.advance i ready next = some t)
    (keeps : ∀ request, (next request).snap = request.snap)
    (sound : ∀ request ∈ s.requests, ready request.phase = true → (next request).Sound host.loader) :
    t.Coupled host := by
  obtain ⟨request, found, isReady, rfl⟩ := advance_cases advances
  have inside := List.mem_of_getElem? found
  refine { coupled with loaded := ?_, sound := ?_ }
  · intro other present
    rcases List.mem_or_eq_of_mem_set present with before | rfl
    · exact coupled.loaded other before
    · exact keeps request ▸ coupled.loaded request inside
  · intro other present
    rcases List.mem_or_eq_of_mem_set present with before | rfl
    · exact coupled.sound other before
    · exact sound request inside isReady

/-- A reload that begins keeps the node coupled: what the hook has bound has its set in the table, and the set
    of the config that is still served stays there. -/
theorem coupled_begin {host : NodeHost} {files : Files} {s : Node} (coupled : s.Coupled host)
    (free : s.storing = none) (push : Option PushHead) (text : String) :
    (s.begin host files push text).Coupled host := by
  obtain ⟨rt, wired⟩ := Option.isSome_iff_exists.mp coupled.wired
  unfold Node.begin
  rcases s.reloader.begin_cases host.texts (s.hook host files) text with
    ⟨outcome, done, -⟩ | ⟨next, version, -, -, done | ⟨wasm, hooked, storing⟩⟩
  · simp only [done]
    exact { coupled with }
  · simp only [done]
    exact { coupled with counted := fun snap inside => Nat.le_succ_of_le (coupled.counted snap inside) }
  · simp only [storing]
    obtain ⟨older, accepted⟩ := coupled.recent
    simp only [free, Option.toList_none, List.map_nil, List.nil_append] at accepted
    have newest : ∀ snap ∈ s.accepted, snap.version < next.version := by
      intro snap inside
      have := coupled.counted snap inside
      omega
    simp only [Node.hook, wired] at hooked
    cases swaps : rt.onSwap host.loader files s.held s.reloader.shared.version next with
    | error e => simp [swaps, Except.map] at hooked
    | ok swapped =>
      simp only [swaps, Except.map, Except.ok.injEq] at hooked
      subst hooked
      obtain ⟨⟨set, stored, enforces⟩, untouched, rest⟩ := onSwap_spec swaps (newest _ coupled.shared_mem)
      refine ⟨rfl, ⟨older, by simp [accepted]⟩, ?_, ?_, ?_, ?_, ?_, coupled.sound⟩
      · exact List.pairwise_cons.mpr ⟨newest, coupled.ordered⟩
      · intro snap inside
        rcases List.mem_cons.mp inside with rfl | before
        · exact Nat.le_of_eq version
        · exact Nat.le_succ_of_le (coupled.counted snap before)
      · rintro other same snap inside found entry
        cases same
        rcases List.mem_cons.mp inside with rfl | before
        · rw [stored, Option.some.injEq] at entry
          exact entry ▸ enforces
        · exact coupled.entered rt wired snap before found
            (rest _ (Nat.ne_of_lt (newest snap before)) found entry)
      · rintro other same snap inside
        cases same
        simp only [accepted, List.take_succ_cons, List.take_zero, List.mem_cons, List.not_mem_nil,
          or_false] at inside
        rcases inside with rfl | rfl
        · simp [stored]
        · rw [untouched]
          exact coupled.kept rt wired _ (by simp [accepted])
      · intro request inside
        exact List.mem_cons_of_mem _ (coupled.loaded request inside)

theorem coupled_step {host : NodeHost} : Runs.Preserves (Node.step host) (Node.Coupled host) := by
  intro s action t coupled stepped
  cases action with
  | reload files text =>
    rcases step_reload stepped with ⟨free, rfl | ⟨read, -, rfl⟩⟩
    · exact coupled
    · exact coupled_begin coupled free none read
  | push head text =>
    simp [Node.step, coupled.wired] at stepped
  | store =>
    obtain ⟨next, push, storing, rfl⟩ := step_store stepped
    obtain ⟨older, accepted⟩ := coupled.recent
    have listed : s.accepted = next :: s.reloader.shared :: older := by simpa [storing] using accepted
    exact { coupled with recent := ⟨s.reloader.shared :: older, listed⟩ }
  | load =>
    cases stepped
    refine { coupled with loaded := ?_, sound := ?_ }
    · intro request inside
      rcases List.mem_append.mp inside with before | new
      · exact coupled.loaded request before
      · simp only [List.mem_singleton] at new
        subst new
        exact coupled.shared_mem
    · intro request inside
      rcases List.mem_append.mp inside with before | new
      · exact coupled.sound request before
      · simp only [List.mem_singleton] at new
        subst new
        exact ⟨by simp, by simp, by simp, by simp⟩
  | bind i now =>
    simp only [Node.step] at stepped
    exact coupled_advance coupled stepped (fun _ => rfl) fun request inside _ => bind_sound coupled inside now
  | readPerEvent i =>
    simp only [Node.step] at stepped
    refine coupled_advance coupled stepped (fun _ => rfl) fun request inside isBound => ?_
    exact readPerEvent_sound (coupled.sound request inside) (by simpa using isBound) s
  | filter i passes view guest =>
    simp only [Node.step] at stepped
    refine coupled_advance coupled stepped (fun request => ?_) fun request inside isReady => ?_
    · obtain ⟨phase, calls, filtered, -⟩ := filter_cases request passes view guest
      rw [filtered]
    · exact filter_sound (coupled.sound request inside) (by simpa using isReady) passes view guest
  | finish i =>
    simp only [Node.step] at stepped
    refine coupled_advance coupled stepped (fun _ => rfl) fun request inside _ => ?_
    exact (coupled.sound request inside).moved (.inl rfl) (by simp)
  | breakGlass «until» =>
    obtain ⟨rt, wired, rfl⟩ := step_breakGlass stepped
    refine { coupled with wired := rfl, entered := ?_, kept := ?_ }
    · rintro other same
      cases same
      exact coupled.entered rt wired
    · rintro other same
      cases same
      exact coupled.kept rt wired

/-- A run in file mode, from the start of the process. -/
def Node.runFile (host : NodeHost) (files : Files) (text : String) (actions : List Action) : Option Node :=
  (Node.bootstrapFile host files text).toOption.bind fun booted => Runs.exec (Node.step host) booted actions

/-- A run in control-plane mode, from the first push. -/
def Node.runPush (host : NodeHost) (push : PushHead) (text : String) (actions : List Action) : Option Node :=
  (Node.bootstrapPush host push text).toOption.bind fun booted => Runs.exec (Node.step host) booted actions

theorem runFile_booted {host : NodeHost} {files : Files} {text : String} {actions : List Action} {s : Node}
    (runs : Node.runFile host files text actions = some s) :
    ∃ booted, Node.bootstrapFile host files text = .ok booted ∧ Runs.exec (Node.step host) booted actions = some s := by
  unfold Node.runFile at runs
  obtain ⟨booted, boots, executed⟩ := Option.bind_eq_some_iff.mp runs
  cases started : Node.bootstrapFile host files text with
  | error e => simp [started, Except.toOption] at boots
  | ok node =>
    simp only [started, Except.toOption, Option.some.injEq] at boots
    exact ⟨booted, by rw [boots], executed⟩

theorem coupled_runFile {host : NodeHost} {files : Files} {text : String} {actions : List Action} {s : Node}
    (runs : Node.runFile host files text actions = some s) : s.Coupled host := by
  obtain ⟨booted, boots, executed⟩ := runFile_booted runs
  exact Runs.exec_preserves coupled_step (coupled_bootstrapFile boots) executed

/-- The modules that a config declares for a hook, by name. -/
def WasmConfig.declared (config : WasmConfig) (hook : Hook) : List String :=
  (config.modules.filter (·.hooks.contains hook)).map (·.name)

theorem compile_name {loader : ModuleLoader} {name : String} {bytes : List UInt8} {policy : PolicyModule}
    (compiles : loader.compile name bytes = .ok policy) : policy.name = name := by
  unfold ModuleLoader.compile at compiles
  split at compiles
  · cases compiles
  · cases compiles
    rfl
  · cases compiles

/-- The modules of a hook are the declared ones. -/
theorem forHook_names {loader : ModuleLoader} {config : WasmConfig} {set : ModuleSet}
    (enforces : Enforces loader config set) (hook : Hook) :
    (set.forHook hook).map LoadedModule.name = config.declared hook := by
  unfold ModuleSet.forHook WasmConfig.declared
  obtain ⟨declared, perEvent⟩ := config
  obtain ⟨modules⟩ := set
  change List.Forall₂ _ declared modules at enforces
  induction enforces with
  | nil => rfl
  | cons stands _ ih =>
    rename_i declared module _ _ _
    obtain ⟨bytes, loaded⟩ := stands
    have same : module.implements hook = declared.hooks.contains hook := by
      rw [LoadedModule.implements, loaded.hooks]
      rfl
    have named : module.name = declared.name := compile_name loaded.compiled
    cases wanted : declared.hooks.contains hook with
    | false => simp only [List.filter_cons, same, wanted, Bool.false_eq_true, if_false, ih]
    | true => simp only [List.filter_cons, same, wanted, if_true, List.map_cons, named, ih]

/-- In file mode a forwarded request has passed the modules of the config it loaded, each verified and loaded
    from what that config declares: they were called in order, each said continue, and the chain ended early
    only at a module that changed headers. It bound under no pin, and no more than one newer config had been
    accepted by then. -/
theorem forwarded_after_declared_policy {host : NodeHost} {files : Files} {text : String}
    {actions : List Action} {s : Node} (runs : Node.runFile host files text actions = some s)
    {request : ReqCtx} (inside : request ∈ s.requests) {headerSet : List (String × String)}
    {headerRemove : List String} (forwarded : request.phase = .forwarded headerSet headerRemove)
    (unpinned : ∀ set, request.binding ≠ some (.pinned set)) (current : request.newer ≤ 1) :
    request.snap ∈ s.accepted ∧
      ∃ set, Enforces host.loader request.snap.config set ∧
        (set.forHook .onRequest).map LoadedModule.name = request.snap.config.declared .onRequest ∧
        Passed (set.forHook .onRequest) request.calls := by
  have coupled := coupled_runFile runs
  have sound := coupled.sound request inside
  obtain ⟨binding, bound⟩ := Option.isSome_iff_exists.mp
    (sound.bound (by simp [forwarded]) (by simp [forwarded]))
  refine ⟨coupled.loaded request inside, ?_⟩
  cases binding with
  | table version set =>
    have enforces := sound.enforces version set bound
    exact ⟨set, enforces, forHook_names enforces .onRequest, sound.passed _ _ forwarded _ bound⟩
  | missing =>
    have := sound.replaced bound
    omega
  | pinned set => exact absurd bound (unpinned set)

/-- Two signed modules that want requests. -/
def twoModules : WasmConfig :=
  ⟨[⟨"headers", "headers.wasm", some "61", [.onRequest], 1⟩, ⟨"deny", "deny.wasm", some "62", [.onRequest], 1⟩],
    false⟩

/-- A host on which every text is that config, and a signature is the module's own bytes. -/
def twoModulesHost : NodeHost where
  texts := ⟨fun _ => .ok twoModules, fun text => text⟩
  loader := ⟨[], fun _ bytes => bytes, fun _ => .ok []⟩

def twoModulesFiles : Files := fun source =>
  if source = "headers.wasm" then .ok [97] else if source = "deny.wasm" then .ok [98] else .error source

/-- One request through every step; the guests answer by their names. -/
def oneRequest (answer : String → Answer) : List Action :=
  [.load, .bind 0 100, .readPerEvent 0, .filter 0 true ⟨"POST", "/v1", ∅, ∅⟩ fun module _ => answer module.name]

/-- What became of a request: its phase and binding, how many newer configs there were, and the modules that
    were called and declared. -/
structure Fate where
  phase : Phase
  binding : Option Binding
  newer : Nat
  called : List String
  declared : List String
  deriving DecidableEq

def Node.fates (s : Node) : List Fate :=
  s.requests.map fun request => ⟨request.phase, request.binding, request.newer,
    request.calls.map (·.1.name), request.snap.config.declared .onRequest⟩

/-- Both modules let a request pass. -/
theorem forwarded_after_two_modules :
    ∃ s, Node.runFile twoModulesHost twoModulesFiles "v1" (oneRequest fun _ => .ok .continues) = some s ∧
      ∃ request ∈ s.requests, ∃ set, Enforces twoModulesHost.loader request.snap.config set ∧
        Passed (set.forHook .onRequest) request.calls := by
  have fates : (Node.runFile twoModulesHost twoModulesFiles "v1" (oneRequest fun _ => .ok .continues)).map
      Node.fates = some [⟨.forwarded [] [], some (.table 1 ⟨[⟨⟨"headers", [97]⟩, [.onRequest], 1⟩,
        ⟨⟨"deny", [98]⟩, [.onRequest], 1⟩]⟩), 0, ["headers", "deny"], ["headers", "deny"]⟩] := by
    decide +kernel
  obtain ⟨s, runs, fate⟩ := Option.map_eq_some_iff.mp fates
  obtain ⟨request, only, fate⟩ := List.map_eq_singleton_iff.mp fate
  simp only [Fate.mk.injEq] at fate
  obtain ⟨forwarded, bound, newer, -, -⟩ := fate
  have inside : request ∈ s.requests := by simp [only]
  obtain ⟨-, set, enforces, -, passed⟩ := forwarded_after_declared_policy runs inside forwarded
    (by simp [bound]) (by omega)
  exact ⟨s, runs, request, inside, set, enforces, passed⟩

/-- Every request that is forwarded under no pin has had a call of every module that its config declares for
    requests, each verified and loaded. -/
def Node.PolicyInForce (host : NodeHost) (s : Node) : Prop :=
  ∀ request ∈ s.requests, ∀ headerSet headerRemove, request.phase = .forwarded headerSet headerRemove →
    (∀ set, request.binding ≠ some (.pinned set)) →
      ∃ set, Enforces host.loader request.snap.config set ∧
        request.calls.map Prod.fst = set.forHook .onRequest

/-- A run whose only request was forwarded past other modules than its config declares leaves some out. -/
theorem left_out {host : NodeHost} {s : Node} {headerSet : List (String × String)} {headerRemove : List String}
    {binding : Option Binding} {newer : Nat} {called declared : List String}
    (fates : s.fates = [⟨.forwarded headerSet headerRemove, binding, newer, called, declared⟩])
    (unpinned : ∀ set, binding ≠ some (.pinned set)) (differ : called ≠ declared) :
    ¬ s.PolicyInForce host := by
  intro inForce
  obtain ⟨request, only, fate⟩ := List.map_eq_singleton_iff.mp fates
  simp only [Fate.mk.injEq] at fate
  obtain ⟨forwarded, bound, -, calls, declares⟩ := fate
  obtain ⟨set, enforces, all⟩ := inForce request (by simp [only]) _ _ forwarded (bound ▸ unpinned)
  apply differ
  calc called = (request.calls.map Prod.fst).map LoadedModule.name := by
        rw [← calls, List.map_map]
        rfl
    _ = request.snap.config.declared .onRequest := by rw [all, forHook_names enforces]
    _ = declared := declares

/-- The first module changes headers, and the second one is never asked. A node in control-plane mode
    acknowledges a push that declares both, and asks none. -/
theorem declared_module_left_out :
    (¬ ∀ host files text actions s, Node.runFile host files text actions = some s → s.PolicyInForce host) ∧
      ¬ ∀ host push text actions s, Node.runPush host push text actions = some s →
        PushAnswer.ack push.fleetVersion text ∈ s.answers → s.PolicyInForce host := by
  constructor
  · intro claimed
    have fates : (Node.runFile twoModulesHost twoModulesFiles "v1"
        (oneRequest fun _ => .ok (.mutateHeaders [("x-policy", "enforced")] []))).map Node.fates =
        some [⟨.forwarded [("x-policy", "enforced")] [], some (.table 1 ⟨[⟨⟨"headers", [97]⟩, [.onRequest], 1⟩,
          ⟨⟨"deny", [98]⟩, [.onRequest], 1⟩]⟩), 0, ["headers"], ["headers", "deny"]⟩] := by
      decide +kernel
    obtain ⟨s, runs, fate⟩ := Option.map_eq_some_iff.mp fates
    exact left_out fate (by simp) (by decide) (claimed _ _ _ _ s runs)
  · intro claimed
    have fates : (Node.runPush twoModulesHost ⟨7, "v1"⟩ "v1" (oneRequest fun _ => .ok .continues)).map
        (fun s => (s.answers, s.fates)) =
        some ([.ack 7 "v1"], [⟨.forwarded [] [], none, 0, [], ["headers", "deny"]⟩]) := by
      decide
    obtain ⟨s, runs, fate⟩ := Option.map_eq_some_iff.mp fates
    simp only [Prod.mk.injEq] at fate
    obtain ⟨answers, fate⟩ := fate
    exact left_out fate (by simp) (by decide) (claimed _ ⟨7, "v1"⟩ "v1" _ s runs (by simp [answers]))

end SmallGateway
