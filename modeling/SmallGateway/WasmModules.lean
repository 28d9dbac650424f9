import SmallGateway.Lib.Fallible
import SmallGateway.Text
import Std.Data.TreeMap.Lemmas

/-!
Policy modules (`gateway-wasm/src/{sig,module,host,bind}.rs`, `gatewayd/src/proxy_wasm.rs`): a module is loaded
only after its signature has been verified over its bytes and the bytes have compiled to a module without
imports, a set is loaded whole or not at all (`load_loaded`), and the chain of a hook asks the modules that
implement it in manifest order until one does not say continue (`chain_passed`).

What a guest answers is up to the guest, which runs in the third-party engine: an answer may be a decision or a
fault, and another one at every call.
-/

namespace SmallGateway

/-- The point of the data plane a guest is called at. -/
inductive Hook
  | onRequest
  | onResponseEvent
  | onResponseEnd
  deriving DecidableEq

/-- One declared policy module. -/
structure WasmModule where
  name : String
  source : String
  signature : Option String
  hooks : List Hook
  schema : Nat

/-- The `wasm` block of a config. -/
structure WasmConfig where
  modules : List WasmModule
  perEventHooks : Bool

/-- The bounded view of a request that a guest sees. -/
structure RequestView where
  method : String
  path : String
  headers : Std.TreeMap String String
  attribution : Std.TreeMap String String

/-- What a guest decides. -/
inductive Decision
  | continues
  | mutateHeaders (set : List (String × String)) (remove : List String)
  | reject (reason : String)
  | cutStream (reason : String)
  deriving DecidableEq

/-- The decision the host takes for a guest that gave none: never to continue. -/
def Decision.failClosed (hook : Hook) (reason : String) : Decision :=
  match hook with
  | .onResponseEvent => .cutStream reason
  | .onRequest | .onResponseEnd => .reject reason

/-! ### Signatures -/

inductive SigError
  | missing
  | malformed (error : String)
  | mismatch
  deriving DecidableEq

def SigError.toText : SigError → String
  | .missing => "module carries no signature (unsigned)"
  | .malformed error => "module signature is malformed: " ++ error
  | .mismatch => "module signature does not match the configured signing key"

def hexNibble (b : UInt8) : Except String UInt8 :=
  if 48 ≤ b ∧ b ≤ 57 then .ok (b - 48)
  else if 97 ≤ b ∧ b ≤ 102 then .ok (b - 97 + 10)
  else if 65 ≤ b ∧ b ≤ 70 then .ok (b - 65 + 10)
  else .error ("non-hex byte " ++ Text.debugChar (Char.ofNat b.toNat))

def decodePairs : List UInt8 → Except String (List UInt8)
  | hi :: lo :: rest =>
    match hexNibble hi with
    | .error e => .error e
    | .ok hi =>
      match hexNibble lo with
      | .error e => .error e
      | .ok lo => (decodePairs rest).map fun out => (hi <<< 4 ||| lo) :: out
  | _ => .ok []

def decodeHex (text : String) : Except String (List UInt8) :=
  let bytes := text.toUTF8.toList
  if bytes.length % 2 ≠ 0 then .error ("odd hex length " ++ toString bytes.length) else decodePairs bytes

/-- What loading rests on: the operator's key, the keyed hash, and the engine's compiler, which yields the
    imports of a module. -/
structure ModuleLoader where
  key : List UInt8
  hmac : List UInt8 → List UInt8 → List UInt8
  newModule : List UInt8 → Except String (List (String × String))

/-- A declared signature against the operator's key. An absent or blank one is missing, not mismatched. -/
def ModuleLoader.verify (loader : ModuleLoader) (bytes : List UInt8) (signature : Option String) :
    Except SigError Unit :=
  match signature.filter fun text => !Text.isBlank text with
  | none => .error .missing
  | some text =>
    match decodeHex (Text.trim text) with
    | .error e => .error (.malformed e)
    | .ok raw => if loader.hmac loader.key bytes = raw then .ok () else .error .mismatch

/-! ### Loading -/

inductive HostError
  | compile (error : String)
  | instantiate (error : String)
  | outOfFuel
  | timeout
  | trap (error : String)
  | boundary (error : String)
  deriving DecidableEq

def HostError.toText : HostError → String
  | .compile error => "module failed to compile: " ++ error
  | .instantiate error => "module failed to instantiate: " ++ error
  | .outOfFuel => "guest exhausted its fuel budget"
  | .timeout => "guest hit the epoch deadline (looping/too slow)"
  | .trap error => "guest trapped: " ++ error
  | .boundary error => "host<->guest boundary fault: " ++ error

/-- A compiled module. -/
structure PolicyModule where
  name : String
  bytes : List UInt8
  deriving DecidableEq

/-- Compiles the bytes; a module that imports anything is refused. -/
def ModuleLoader.compile (loader : ModuleLoader) (name : String) (bytes : List UInt8) :
    Except HostError PolicyModule :=
  match loader.newModule bytes with
  | .error e => .error (.compile e)
  | .ok [] => .ok ⟨name, bytes⟩
  | .ok ((module, item) :: _) =>
    .error (.instantiate ("module " ++ Text.debugStr name ++ " imports " ++ module ++ "::" ++ item ++
      " — policy modules run with no host imports (no I/O, no clock, no host calls); an importing module is rejected"))

/-- A module as declared, with its bytes. -/
structure ModuleManifest where
  name : String
  bytes : List UInt8
  signature : Option String
  hooks : List Hook
  schema : Nat

inductive LoadError
  | signature (name : String) (error : SigError)
  | host (name : String) (error : HostError)
  deriving DecidableEq

def LoadError.toText : LoadError → String
  | .signature name error => "module " ++ Text.debugStr name ++ " rejected: " ++ error.toText
  | .host name error => "module " ++ Text.debugStr name ++ " failed to load: " ++ error.toText

structure LoadedModule where
  policy : PolicyModule
  hooks : List Hook
  schema : Nat
  deriving DecidableEq

def LoadedModule.name (module : LoadedModule) : String := module.policy.name

def LoadedModule.implements (module : LoadedModule) (hook : Hook) : Bool := module.hooks.contains hook

/-- Verifies the signature first, then compiles. -/
def ModuleLoader.loadOne (loader : ModuleLoader) (manifest : ModuleManifest) : Except LoadError LoadedModule :=
  match loader.verify manifest.bytes manifest.signature with
  | .error e => .error (.signature manifest.name e)
  | .ok () =>
    match loader.compile manifest.name manifest.bytes with
    | .error e => .error (.host manifest.name e)
    | .ok policy => .ok ⟨policy, manifest.hooks, manifest.schema⟩

/-- The loaded modules of one config, in manifest order. -/
structure ModuleSet where
  modules : List LoadedModule
  deriving DecidableEq

def ModuleSet.empty : ModuleSet := ⟨[]⟩

/-- Loads every manifest, or none. -/
def ModuleLoader.load (loader : ModuleLoader) (manifests : List ModuleManifest) : Except LoadError ModuleSet :=
  (manifests.mapM loader.loadOne).map ModuleSet.mk

def ModuleSet.forHook (set : ModuleSet) (hook : Hook) : List LoadedModule :=
  set.modules.filter (·.implements hook)

def ModuleSet.wants (set : ModuleSet) (hook : Hook) : Bool := !(set.forHook hook).isEmpty

/-- The module stands for the manifest: its signature verifies and its bytes compile. -/
structure Loaded (loader : ModuleLoader) (manifest : ModuleManifest) (module : LoadedModule) : Prop where
  signed : loader.verify manifest.bytes manifest.signature = .ok ()
  compiled : loader.compile manifest.name manifest.bytes = .ok module.policy
  hooks : module.hooks = manifest.hooks
  schema : module.schema = manifest.schema

theorem loadOne_loaded {loader : ModuleLoader} {manifest : ModuleManifest} {module : LoadedModule}
    (loads : loader.loadOne manifest = .ok module) : Loaded loader manifest module := by
  unfold ModuleLoader.loadOne at loads
  split at loads
  · cases loads
  · rename_i signed
    split at loads
    · cases loads
    · rename_i policy compiled
      cases loads
      exact ⟨signed, compiled, rfl, rfl⟩

theorem load_loaded {loader : ModuleLoader} {manifests : List ModuleManifest} {set : ModuleSet}
    (loads : loader.load manifests = .ok set) : List.Forall₂ (Loaded loader) manifests set.modules := by
  unfold ModuleLoader.load at loads
  cases mapped : manifests.mapM loader.loadOne with
  | error e => simp [mapped, Except.map] at loads
  | ok modules =>
    simp only [mapped, Except.map, Except.ok.injEq] at loads
    subst loads
    exact (Fallible.forall₂_of_mapM_ok mapped).imp fun _ _ => loadOne_loaded

/-! ### The chain of a hook -/

/-- What a module answers when it is called. -/
abbrev Answer := Except HostError Decision

/-- The chain's decision, and the calls it made, in order. A fault is a refusal. -/
def chain (hook : Hook) (answer : LoadedModule → Answer) :
    List LoadedModule → Decision × List (LoadedModule × Answer)
  | [] => (.continues, [])
  | module :: rest =>
    match answer module with
    | .ok .continues =>
      let (decision, calls) := chain hook answer rest
      (decision, (module, .ok .continues) :: calls)
    | .ok decision => (decision, [(module, .ok decision)])
    | .error e => (.failClosed hook ("wasm-module-fault:" ++ module.name), [(module, .error e)])

/-- What the request chain means for the request. -/
inductive RequestOutcome
  | proceed (headerSet : List (String × String)) (headerRemove : List String)
  | reject (reason : String)
  deriving DecidableEq

def runOnRequest : Decision → RequestOutcome
  | .continues => .proceed [] []
  | .mutateHeaders set remove => .proceed set remove
  | .reject reason | .cutStream reason => .reject reason

/-- Runs the request chain where some module implements it, and the calls that were made. -/
def applyOnRequest (guest : LoadedModule → RequestView → Answer) (set : ModuleSet) (view : RequestView) :
    Option RequestOutcome × List (LoadedModule × Answer) :=
  if !set.wants .onRequest then (none, [])
  else
    let (decision, calls) := chain .onRequest (fun module => guest module view) (set.forHook .onRequest)
    (some (runOnRequest decision), calls)

/-- The calls let a request pass: they go through the modules in order, every one of them says continue but
    perhaps the last, which may change headers instead, and when all of them say continue none is left out. -/
structure Passed (modules : List LoadedModule) (calls : List (LoadedModule × Answer)) : Prop where
  ordered : calls.map Prod.fst <+: modules
  continued : ∀ call ∈ calls.dropLast, call.2 = .ok .continues
  decided : ∀ call ∈ calls, call.2 = .ok .continues ∨ ∃ set remove, call.2 = .ok (.mutateHeaders set remove)
  complete : (∀ call ∈ calls, call.2 = .ok .continues) → calls.map Prod.fst = modules

theorem Passed.nil : Passed [] [] :=
  ⟨List.nil_prefix, by simp, by simp, by simp⟩

theorem Passed.cons {module : LoadedModule} {modules : List LoadedModule} {calls : List (LoadedModule × Answer)}
    (rest : Passed modules calls) : Passed (module :: modules) ((module, .ok .continues) :: calls) where
  ordered := by simpa using rest.ordered
  continued := by
    intro call inside
    cases calls with
    | nil => simp at inside
    | cons first others =>
      rw [List.dropLast_cons_of_ne_nil (by simp)] at inside
      rcases List.mem_cons.mp inside with rfl | later
      · rfl
      · exact rest.continued call later
  decided := by
    intro call inside
    rcases List.mem_cons.mp inside with rfl | later
    · exact .inl rfl
    · exact rest.decided call later
  complete := by
    intro allContinue
    have others := rest.complete fun call inside => allContinue call (List.mem_cons_of_mem _ inside)
    simp [others]

theorem Passed.changed (module : LoadedModule) (modules : List LoadedModule) (set : List (String × String))
    (remove : List String) : Passed (module :: modules) [(module, .ok (.mutateHeaders set remove))] where
  ordered := by simp
  continued := by simp
  decided := by simp
  complete := by simp

theorem chain_passed {hook : Hook} {answer : LoadedModule → Answer} {modules : List LoadedModule}
    {set : List (String × String)} {remove : List String}
    (passes : runOnRequest (chain hook answer modules).1 = .proceed set remove) :
    Passed modules (chain hook answer modules).2 := by
  induction modules with
  | nil => exact .nil
  | cons module modules ih =>
    unfold chain at passes ⊢
    cases answered : answer module with
    | error e => cases hook <;> simp [answered, Decision.failClosed, runOnRequest] at passes
    | ok decision =>
      cases decision with
      | continues =>
        simp only [answered] at passes ⊢
        exact .cons (ih passes)
      | mutateHeaders set remove => exact .changed module modules set remove
      | reject reason => simp [answered, runOnRequest] at passes
      | cutStream reason => simp [answered, runOnRequest] at passes

/-- A request that is not rejected has passed the chain of its modules. -/
theorem applyOnRequest_passed {guest : LoadedModule → RequestView → Answer} {set : ModuleSet}
    {view : RequestView} (passes : ∀ reason, (applyOnRequest guest set view).1 ≠ some (.reject reason)) :
    Passed (set.forHook .onRequest) (applyOnRequest guest set view).2 := by
  unfold applyOnRequest at passes ⊢
  cases wanted : set.wants .onRequest with
  | false =>
    have unasked : set.forHook .onRequest = [] := by simpa [ModuleSet.wants] using wanted
    simp only [Bool.not_false, if_true, unasked]
    exact .nil
  | true =>
    simp only [wanted, Bool.not_true, Bool.false_eq_true, if_false] at passes ⊢
    cases decided : runOnRequest
        (chain .onRequest (fun module => guest module view) (set.forHook .onRequest)).1 with
    | proceed headers removed => exact chain_passed decided
    | reject reason => exact absurd (congrArg some decided) (passes reason)

end SmallGateway
