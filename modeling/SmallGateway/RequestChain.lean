import SmallGateway.UpstreamHeaders
import SmallGateway.WasmModules

/-!
The request hook of the policy modules (`gateway-wasm/src/{host,bind,abi}.rs`, `gatewayd/src/proxy_wasm.rs`). A guest
is called in a fresh store, and whatever goes wrong on the way to a decision is an error of the host (`invoke_ok`). The
chain ends with the first module that does not say continue (`chain_ends`), so that a fault of a module that is asked
rejects the request and the headers that change are those of one module (`request_chain_fails_closed`). A module can
also end the chain with a mutation of nothing: then the modules after it are not asked (`blank_mutation_ends_chain`).
The engine and the JSON library are parameters.
-/

namespace SmallGateway

/-! ### Calling a guest -/

inductive Trap
  | outOfFuel
  | interrupt
  | other (text : String)

/-- What the engine reports where a call fails. -/
inductive EngineError
  | trap (trap : Trap)
  | failed (text : String)

structure Limits where
  fuel : Nat
  epochDeadline : Nat
  maxMemoryBytes : Nat

def Limits.default : Limits := ⟨5000000, 10, 16 * 1024 * 1024⟩

/-- The engine that the guests run in, whose stores have the type, and the JSON of the boundary. -/
structure WasmHost (σ : Type) where
  newStore : Nat → σ
  setFuel : Nat → σ → Except String σ
  setEpochDeadline : Nat → σ → σ
  instantiate : PolicyModule → σ → Except String σ
  memory : σ → Option (List UInt8)
  allocExport : σ → Except String Unit
  hookExport : String → σ → Except String Unit
  alloc : Int32 → σ → Except EngineError (Int32 × σ)
  write : Nat → List UInt8 → σ → Except String σ
  call : String → Int32 → Int32 → σ → Except EngineError (UInt64 × σ)
  requestJson : RequestView → Except String (List UInt8)
  decision : List UInt8 → Except String Decision

def Hook.exportName : Hook → String
  | .onRequest => "on_request"
  | .onResponseEvent => "on_response_event"
  | .onResponseEnd => "on_response_end"

def WasmHost.classify : EngineError → HostError
  | .trap .outOfFuel => .outOfFuel
  | .trap .interrupt => .timeout
  | .trap (.other text) => .trap text
  | .failed text => .trap text

namespace WasmHost

def ensure (holds : Bool) (error : HostError) : Except HostError Unit := if holds then .ok () else .error error

variable {σ : Type} (host : WasmHost σ)

/-- Copies the input into the memory of the guest, calls the hook, and copies the output out. -/
def callHook (store : σ) (hook : Hook) (input : List UInt8) : Except HostError (List UInt8) := do
  ensure (host.memory store).isSome (.instantiate "module exports no `memory`")
  (host.allocExport store).mapError fun e => .instantiate ("module exports no `alloc`: " ++ e)
  (host.hookExport hook.exportName store).mapError fun e =>
    .instantiate ("module exports no `" ++ hook.exportName ++ "`: " ++ e)
  let len := Int32.ofNat input.length
  let (ptr, allocated) ← (host.alloc len store).mapError classify
  ensure (0 ≤ ptr) (.boundary "alloc returned a negative pointer")
  let written ← (host.write ptr.toNatClampNeg input allocated).mapError fun e =>
    .boundary ("write input to guest memory: " ++ e)
  let (packed, returned) ← (host.call hook.exportName ptr len written).mapError classify
  let outPtr := (packed >>> 32).toNat
  let outLen := (packed &&& 0xffffffff).toNat
  let data := (host.memory returned).getD []
  ensure (outPtr + outLen < 2 ^ 64) (.boundary "output span overflows")
  ensure (outPtr + outLen ≤ data.length)
    (.boundary ("output span " ++ toString outPtr ++ ".." ++ toString (outPtr + outLen) ++ " exceeds guest memory " ++
      toString data.length))
  return (data.drop outPtr).take outLen

/-- A fresh store with its bounds armed, an instance, and the decision that the hook puts out. -/
def invoke (limits : Limits) (module : PolicyModule) (hook : Hook) (input : List UInt8) :
    Except HostError Decision := do
  let fuelled ← (host.setFuel limits.fuel (host.newStore limits.maxMemoryBytes)).mapError .instantiate
  let armed := host.setEpochDeadline limits.epochDeadline fuelled
  let store ← (host.instantiate module armed).mapError .instantiate
  let out ← host.callHook store hook input
  (host.decision out).mapError fun e => .boundary ("guest returned non-Decision JSON: " ++ e)

def onRequest (limits : Limits) (module : LoadedModule) (view : RequestView) : Answer := do
  let input ← (host.requestJson view).mapError fun e => .boundary ("serialize RequestView: " ++ e)
  host.invoke limits module.policy .onRequest input

/-- The call goes through: the guest exports what is called, no call traps, both spans lie in its memory, and the
    output is this one. -/
structure Returns (store : σ) (hook : Hook) (input out : List UInt8) (ptr : Int32) (packed : UInt64)
    (allocated written returned : σ) : Prop where
  memory : (host.memory store).isSome
  allocExport : host.allocExport store = .ok ()
  hookExport : host.hookExport hook.exportName store = .ok ()
  alloc : host.alloc (Int32.ofNat input.length) store = .ok (ptr, allocated)
  placed : 0 ≤ ptr
  write : host.write ptr.toNatClampNeg input allocated = .ok written
  call : host.call hook.exportName ptr (Int32.ofNat input.length) written = .ok (packed, returned)
  inside : (packed >>> 32).toNat + (packed &&& 0xffffffff).toNat ≤ ((host.memory returned).getD []).length
  output : out =
    (((host.memory returned).getD []).drop (packed >>> 32).toNat).take (packed &&& 0xffffffff).toNat

/-- The guest gives the decision: it is fuelled and instantiated, its hook goes through, and what it puts out is
    decoded to the decision. -/
def Decides (limits : Limits) (module : LoadedModule) (view : RequestView) (decision : Decision) : Prop :=
  ∃ input fuelled store out ptr packed allocated written returned,
    host.requestJson view = .ok input ∧
    host.setFuel limits.fuel (host.newStore limits.maxMemoryBytes) = .ok fuelled ∧
    host.instantiate module.policy (host.setEpochDeadline limits.epochDeadline fuelled) = .ok store ∧
    host.Returns store .onRequest input out ptr packed allocated written returned ∧
    host.decision out = .ok decision

end WasmHost

theorem WasmHost.ensure_ok {holds : Bool} {error : HostError} {done : Unit} :
    ensure holds error = .ok done ↔ holds = true := by
  cases holds <;> simp [ensure]

/-- A place and a size of 32 bits each do not overflow. -/
theorem span_lt (packed : UInt64) : (packed >>> 32).toNat + (packed &&& 0xffffffff).toNat < 2 ^ 64 := by
  have place : (packed >>> 32).toNat < 2 ^ 32 := by
    have bits := packed.toNat_lt
    have shifted : (packed >>> 32).toNat = packed.toNat / 2 ^ 32 := by
      rw [UInt64.toNat_shiftRight]
      exact Nat.shiftRight_eq_div_pow _ _
    omega
  have size : (packed &&& 0xffffffff).toNat < 2 ^ 32 := by
    rw [UInt64.toNat_and]
    exact Nat.and_lt_two_pow _ (by decide)
  omega

namespace WasmHost

variable {σ : Type} {host : WasmHost σ}

theorem callHook_ok {store : σ} {hook : Hook} {input out : List UInt8} :
    host.callHook store hook input = .ok out ↔
      ∃ ptr packed allocated written returned,
        host.Returns store hook input out ptr packed allocated written returned := by
  simp only [callHook, Fallible.bind_ok, ensure_ok, Fallible.mapError_ok, pure, Except.pure, Except.ok.injEq,
    decide_eq_true_eq, Prod.exists]
  constructor
  · rintro ⟨_, memory, _, allocExport, _, hookExport, ptr, allocated, alloc, _, placed, written, write, packed,
      returned, call, _, _, _, inside, rfl⟩
    exact ⟨ptr, packed, allocated, written, returned,
      ⟨memory, allocExport, hookExport, alloc, placed, write, call, inside, rfl⟩⟩
  · rintro ⟨ptr, packed, allocated, written, returned, run⟩
    exact ⟨(), run.memory, (), run.allocExport, (), run.hookExport, ptr, allocated, run.alloc, (), run.placed,
      written, run.write, packed, returned, run.call, (), span_lt packed, (), run.inside, run.output.symm⟩

/-- A guest answers with a decision exactly when it gives one: everything else is a fault. -/
theorem onRequest_ok {limits : Limits} {module : LoadedModule} {view : RequestView} {decision : Decision} :
    host.onRequest limits module view = .ok decision ↔ host.Decides limits module view decision := by
  simp only [onRequest, invoke, Fallible.bind_ok, Fallible.mapError_ok, callHook_ok, Decides]
  constructor
  · rintro ⟨input, json, fuelled, fuel, store, instance', out, run, decoded⟩
    obtain ⟨ptr, packed, allocated, written, returned, run⟩ := run
    exact ⟨input, fuelled, store, out, ptr, packed, allocated, written, returned, json, fuel, instance', run, decoded⟩
  · rintro ⟨input, fuelled, store, out, ptr, packed, allocated, written, returned, json, fuel, instance', run, decoded⟩
    exact ⟨input, json, fuelled, fuel, store, instance', out, ⟨ptr, packed, allocated, written, returned, run⟩, decoded⟩

end WasmHost

/-! ### The chain -/

/-- How a chain ends: every module says continue, one decides something else, or one faults. Only the modules up to the
    one that ends it are asked. -/
inductive ChainEnd (hook : Hook) (answer : LoadedModule → Answer) :
    List LoadedModule → Decision × List (LoadedModule × Answer) → Prop
  | passed (modules : List LoadedModule) (continued : ∀ module ∈ modules, answer module = .ok .continues) :
    ChainEnd hook answer modules (.continues, modules.map fun module => (module, answer module))
  | decided (before after : List LoadedModule) (module : LoadedModule) (decision : Decision)
    (continued : ∀ earlier ∈ before, answer earlier = .ok .continues) (decides : answer module = .ok decision)
    (other : decision ≠ .continues) :
    ChainEnd hook answer (before ++ module :: after)
      (decision, (before ++ [module]).map fun module => (module, answer module))
  | faulted (before after : List LoadedModule) (module : LoadedModule) (error : HostError)
    (continued : ∀ earlier ∈ before, answer earlier = .ok .continues) (faults : answer module = .error error) :
    ChainEnd hook answer (before ++ module :: after)
      (.failClosed hook ("wasm-module-fault:" ++ module.name),
        (before ++ [module]).map fun module => (module, answer module))

/-- A module that says continue leaves the end to the modules after it. -/
theorem ChainEnd.cons {hook : Hook} {answer : LoadedModule → Answer} {modules : List LoadedModule}
    {result : Decision × List (LoadedModule × Answer)} {module : LoadedModule}
    (continues : answer module = .ok .continues) (rest : ChainEnd hook answer modules result) :
    ChainEnd hook answer (module :: modules) (result.1, (module, answer module) :: result.2) := by
  cases rest with
  | passed _ continued => exact .passed (module :: modules) (List.forall_mem_cons.mpr ⟨continues, continued⟩)
  | decided before after ending decision continued decides other =>
    exact .decided (module :: before) after ending decision (List.forall_mem_cons.mpr ⟨continues, continued⟩) decides
      other
  | faulted before after ending error continued faults =>
    exact .faulted (module :: before) after ending error (List.forall_mem_cons.mpr ⟨continues, continued⟩) faults

theorem chain_ends (hook : Hook) (answer : LoadedModule → Answer) (modules : List LoadedModule) :
    ChainEnd hook answer modules (chain hook answer modules) := by
  induction modules with
  | nil => exact .passed [] (by simp)
  | cons module modules ih =>
    cases answered : answer module with
    | error e =>
      have ended : ChainEnd hook answer (module :: modules) _ := .faulted [] modules module e (by simp) answered
      simpa [chain, answered] using ended
    | ok decision =>
      by_cases continues : decision = .continues
      · subst continues
        have ended := ih.cons answered
        simpa [chain, answered] using ended
      · have ended : ChainEnd hook answer (module :: modules) _ :=
          .decided [] modules module decision (by simp) answered continues
        cases decision with
        | continues => exact absurd rfl continues
        | mutateHeaders set remove => simpa [chain, answered] using ended
        | reject reason => simpa [chain, answered] using ended
        | cutStream reason => simpa [chain, answered] using ended

/-! ### The request -/

/-- What the hook leaves in the context of the request, whose header changes start out empty, or why the request is
    rejected. -/
def HeaderCtx.afterChain (ctx : HeaderCtx) : Option RequestOutcome → Except String HeaderCtx
  | none => .ok { ctx with wasmHeaderSet := [], wasmHeaderRemove := [] }
  | some (.proceed headerSet headerRemove) =>
    .ok { ctx with wasmHeaderSet := headerSet, wasmHeaderRemove := headerRemove }
  | some (.reject reason) => .error reason

/-- The hook of a request, and the calls that were made. -/
def HeaderCtx.requestHook (ctx : HeaderCtx) (guest : LoadedModule → RequestView → Answer) (set : ModuleSet)
    (view : RequestView) : Except String HeaderCtx × List (LoadedModule × Answer) :=
  let (outcome, calls) := applyOnRequest guest set view
  (ctx.afterChain outcome, calls)

/-- The header changes that an answer asks for. -/
def mutation : Answer → Option (List (String × String) × List String)
  | .ok (.mutateHeaders headerSet headerRemove) => some (headerSet, headerRemove)
  | _ => none

def mutations (calls : List (LoadedModule × Answer)) : List (List (String × String) × List String) :=
  calls.filterMap fun call => mutation call.2

theorem mutations_append (calls others : List (LoadedModule × Answer)) :
    mutations (calls ++ others) = mutations calls ++ mutations others :=
  List.filterMap_append

theorem mutations_continued {answer : LoadedModule → Answer} {modules : List LoadedModule}
    (continued : ∀ module ∈ modules, answer module = .ok .continues) :
    mutations (modules.map fun module => (module, answer module)) = [] := by
  rw [mutations, List.filterMap_eq_nil_iff, List.forall_mem_map]
  intro module inside
  rw [continued module inside]
  rfl

theorem wasmWrites_eq_nil {ctx : HeaderCtx} :
    ctx.wasmWrites = [] ↔ ctx.wasmHeaderSet = [] ∧ ctx.wasmHeaderRemove = [] := by
  rw [HeaderCtx.wasmWrites, List.append_eq_nil_iff, List.map_eq_nil_iff, List.map_eq_nil_iff]
  exact and_comm

/-- The hook does what the decision of the chain says, also where no module implements it. -/
theorem requestHook_eq (ctx : HeaderCtx) (guest : LoadedModule → RequestView → Answer) (set : ModuleSet)
    (view : RequestView) :
    ctx.requestHook guest set view =
      (ctx.afterChain (some (runOnRequest (chain .onRequest (guest · view) (set.forHook .onRequest)).1)),
        (chain .onRequest (guest · view) (set.forHook .onRequest)).2) := by
  rw [HeaderCtx.requestHook, applyOnRequest]
  cases wanted : set.wants .onRequest with
  | false =>
    have unasked : set.forHook .onRequest = [] := by simpa [ModuleSet.wants] using wanted
    rw [unasked]
    rfl
  | true => rfl

/-- What a request may rely on. The modules are asked in their order. The request proceeds only past modules that said
    continue or changed headers. It proceeds unchanged only where every module said continue, or the one that ended the
    chain changed nothing. A module that gave no decision has the request rejected. The header changes are those of the
    one module that asked for changes. -/
structure FailsClosed {σ : Type} (host : WasmHost σ) (limits : Limits) (modules : List LoadedModule)
    (view : RequestView) (result : Except String HeaderCtx × List (LoadedModule × Answer)) : Prop where
  asked : result.2.map Prod.fst <+: modules
  answered : ∀ call ∈ result.2, call.2 = host.onRequest limits call.1 view
  passed : ∀ after, result.1 = .ok after → ∀ call ∈ result.2,
    call.2 = .ok .continues ∨ ∃ headerSet headerRemove, call.2 = .ok (.mutateHeaders headerSet headerRemove)
  unchanged : ∀ after, result.1 = .ok after → after.wasmWrites = [] →
    (∀ module ∈ modules, host.Decides limits module view .continues) ∨
      ∃ call, result.2.getLast? = some call ∧ call.2 = .ok (.mutateHeaders [] [])
  faulted : ∀ call ∈ result.2, (∀ decision, ¬ host.Decides limits call.1 view decision) →
    result.1 = .error ("wasm-module-fault:" ++ call.1.name)
  mutated : ∀ after, result.1 = .ok after → (mutations result.2).length ≤ 1 ∧
    (after.wasmHeaderSet, after.wasmHeaderRemove) = (mutations result.2).head?.getD ([], [])

section

variable {σ : Type} {host : WasmHost σ} {limits : Limits} {view : RequestView}

/-- The calls of a chain, for the modules that it asked. -/
abbrev callsOf (host : WasmHost σ) (limits : Limits) (view : RequestView) (modules : List LoadedModule) :
    List (LoadedModule × Answer) :=
  modules.map fun module => (module, host.onRequest limits module view)

theorem callsOf_fst (modules : List LoadedModule) : (callsOf host limits view modules).map Prod.fst = modules := by
  rw [callsOf, List.map_map]
  exact List.map_id modules

theorem FailsClosed.continued (ctx : HeaderCtx) {modules : List LoadedModule}
    (continued : ∀ module ∈ modules, host.onRequest limits module view = .ok .continues) :
    FailsClosed host limits modules view
      (ctx.afterChain (some (.proceed [] [])), callsOf host limits view modules) where
  asked := by rw [callsOf_fst]
  answered := List.forall_mem_map.mpr fun _ _ => rfl
  passed := fun after _ => List.forall_mem_map.mpr fun module inside => .inl (continued module inside)
  unchanged := fun after _ _ => .inl fun module inside => WasmHost.onRequest_ok.mp (continued module inside)
  faulted := by
    refine List.forall_mem_map.mpr fun module inside faults => ?_
    exact absurd (WasmHost.onRequest_ok.mp (continued module inside)) (faults _)
  mutated := by
    rintro after ⟨⟩
    rw [mutations_continued continued]
    exact ⟨Nat.zero_le _, rfl⟩

theorem callsOf_prefix {before after : List LoadedModule} {module : LoadedModule} :
    (callsOf host limits view (before ++ [module])).map Prod.fst <+: before ++ module :: after := by
  rw [callsOf_fst]
  exact ⟨after, by simp⟩

theorem getLast?_callsOf {before : List LoadedModule} {module : LoadedModule} :
    (callsOf host limits view (before ++ [module])).getLast? =
      some (module, host.onRequest limits module view) := by
  rw [callsOf, List.map_append, List.map_cons, List.map_nil, List.getLast?_concat]

/-- The modules that were asked said continue or are the one that ended the chain. -/
theorem forall_callsOf {before : List LoadedModule} {module : LoadedModule} {P : LoadedModule × Answer → Prop}
    (continued : ∀ earlier ∈ before, P (earlier, host.onRequest limits earlier view))
    (ended : P (module, host.onRequest limits module view)) :
    ∀ call ∈ callsOf host limits view (before ++ [module]), P call := by
  refine List.forall_mem_map.mpr fun earlier inside => ?_
  rcases List.mem_append.mp inside with early | last
  · exact continued earlier early
  · rw [List.mem_singleton.mp last]
    exact ended

theorem FailsClosed.changed (ctx : HeaderCtx) {before after : List LoadedModule} {module : LoadedModule}
    {headerSet : List (String × String)} {headerRemove : List String}
    (continued : ∀ earlier ∈ before, host.onRequest limits earlier view = .ok .continues)
    (changes : host.onRequest limits module view = .ok (.mutateHeaders headerSet headerRemove)) :
    FailsClosed host limits (before ++ module :: after) view
      (ctx.afterChain (some (.proceed headerSet headerRemove)), callsOf host limits view (before ++ [module])) where
  asked := callsOf_prefix
  answered := List.forall_mem_map.mpr fun _ _ => rfl
  passed := fun left _ => by
    refine forall_callsOf (fun earlier inside => .inl (continued earlier inside)) ?_
    exact .inr ⟨headerSet, headerRemove, changes⟩
  unchanged := by
    rintro left ⟨⟩ blank
    obtain ⟨rfl, rfl⟩ := wasmWrites_eq_nil.mp blank
    exact .inr ⟨_, getLast?_callsOf, changes⟩
  faulted := by
    refine forall_callsOf (fun earlier inside faults => ?_) fun faults => ?_
    · exact absurd (WasmHost.onRequest_ok.mp (continued earlier inside)) (faults _)
    · exact absurd (WasmHost.onRequest_ok.mp changes) (faults _)
  mutated := by
    rintro left ⟨⟩
    have asks : mutations (callsOf host limits view (before ++ [module])) = [(headerSet, headerRemove)] := by
      rw [callsOf, List.map_append, mutations_append, mutations_continued continued, List.map_cons, changes]
      rfl
    rw [asks]
    exact ⟨le_rfl, rfl⟩

/-- A chain that ends with a rejection fails closed, where the reason of a fault names the module. -/
theorem FailsClosed.refused {reason : String} {before after : List LoadedModule} {module : LoadedModule}
    (continued : ∀ earlier ∈ before, host.onRequest limits earlier view = .ok .continues)
    (named : (∀ decision, ¬ host.Decides limits module view decision) →
      reason = "wasm-module-fault:" ++ module.name) :
    FailsClosed host limits (before ++ module :: after) view
      (.error reason, callsOf host limits view (before ++ [module])) where
  asked := callsOf_prefix
  answered := List.forall_mem_map.mpr fun _ _ => rfl
  passed := by rintro left ⟨⟩
  unchanged := by rintro left ⟨⟩
  faulted := by
    refine forall_callsOf (fun earlier inside faults => ?_) fun faults => congrArg _ (named faults)
    exact absurd (WasmHost.onRequest_ok.mp (continued earlier inside)) (faults _)
  mutated := by rintro left ⟨⟩

end

/-- Over every engine, every module set and every request: the hook of the modules fails closed. -/
theorem request_chain_fails_closed {σ : Type} (host : WasmHost σ) (limits : Limits) (set : ModuleSet)
    (view : RequestView) (ctx : HeaderCtx) :
    FailsClosed host limits (set.forHook .onRequest) view (ctx.requestHook (host.onRequest limits) set view) := by
  rw [requestHook_eq]
  have ended := chain_ends .onRequest (host.onRequest limits · view) (set.forHook .onRequest)
  generalize chain .onRequest (host.onRequest limits · view) (set.forHook .onRequest) = result at ended ⊢
  generalize set.forHook .onRequest = modules at ended ⊢
  cases ended with
  | passed _ continued => exact .continued ctx continued
  | decided before after module decision continued decides other =>
    have given (faults : ∀ decision, ¬ host.Decides limits module view decision) : False :=
      faults decision (WasmHost.onRequest_ok.mp decides)
    cases decision with
    | continues => exact absurd rfl other
    | mutateHeaders headerSet headerRemove => exact .changed ctx continued decides
    | reject reason => exact .refused continued fun faults => (given faults).elim
    | cutStream reason => exact .refused continued fun faults => (given faults).elim
  | faulted before after module error continued faults => exact .refused continued fun _ => rfl

/-! ### A mutation of nothing -/

/-- A guest whose module is its data: it puts out what stands there, and places its input after it. -/
def dataHost : WasmHost (List UInt8 × List UInt8) where
  newStore := fun _ => ([], [])
  setFuel := fun _ store => .ok store
  setEpochDeadline := fun _ store => store
  instantiate := fun module _ => .ok (module.bytes, [])
  memory := fun store => some (store.1 ++ store.2)
  allocExport := fun _ => .ok ()
  hookExport := fun _ _ => .ok ()
  alloc := fun _ store => .ok (Int32.ofNat store.1.length, store)
  write := fun _ input store => .ok (store.1, input)
  call := fun _ _ _ store => .ok (UInt64.ofNat store.1.length, store)
  requestJson := fun _ => .ok [123, 125]
  decision := fun
    | [0] => .ok .continues
    | [1] => .ok (.mutateHeaders [] [])
    | [2] => .ok (.reject "blocked")
    | _ => .error "expected value"

def dataModule (name : String) (bytes : List UInt8) : LoadedModule := ⟨⟨name, bytes⟩, [.onRequest], 1⟩

/-- The first module changes nothing, and the second one, which would reject, is not asked. -/
theorem blank_mutation_ends_chain :
    let modules : ModuleSet := ⟨[dataModule "noop" [1], dataModule "block" [2]]⟩
    let view : RequestView := ⟨"POST", "/v1/chat", ∅, ∅⟩
    let answer module := dataHost.onRequest .default module view
    (applyOnRequest (dataHost.onRequest .default) modules view).1 = some (.proceed [] []) ∧
      ¬ ∀ module ∈ modules.forHook .onRequest, answer module = .ok .continues := by
  decide

end SmallGateway
