import SmallGateway.WasmBinding

/-!
Whether a request runs the modules and the event setting of the version it loaded (`gatewayd/src/wasm_runtime.rs`,
`new_ctx` in `gatewayd/src/proxy.rs`). A swap enters the modules of the new version before the snapshot cell advances,
but it drops the versions that nobody has bound yet, and it replaces the one event setting of the node. So a request
runs its own version as long as no swap comes between its load and its binding that does not replace what it loaded, or
between its load and the reading of the setting that changes the setting (`own_version`).
-/

namespace SmallGateway

/-- The request has read the event setting and is not over. -/
def Phase.reads : Phase → Bool
  | .ready | .forwarded _ _ | .refused => true
  | .loaded | .bound | .ended => false

/-- The modules of a binding want the events of a response. -/
def ReqCtx.wantsEvents (request : ReqCtx) : Bool :=
  (request.binding.map fun binding => binding.set.wants .onResponseEvent).getD false

/-- The request runs the modules and the event setting of the snapshot it loaded. -/
structure ReqCtx.OwnVersion (loader : ModuleLoader) (request : ReqCtx) : Prop where
  modules : ∀ binding, request.binding = some binding →
    ∃ set, binding = .table request.snap.version set ∧ Enforces loader request.snap.config set
  perEvent : request.phase.reads = true →
    request.perEvent = (request.snap.config.perEventHooks && request.wantsEvents)

/-- The snapshot whose modules were entered last: the one that waits to be stored, or the one that is served. -/
def Node.newest (s : Node) : Snapshot WasmConfig :=
  match s.storing with
  | some (next, _) => next
  | none => s.reloader.shared

/-- A swap finds every request that has loaded and not bound at the version that is replaced, or at one whose modules
    another request holds; and a request whose modules want events reads the setting when the config swapped in last
    has that of its own. -/
def Node.Orderly (host : NodeHost) (s : Node) : Action → Prop
  | .reload files (some text) => (s.begin host files none text).storing.isSome →
    ∀ request ∈ s.requests, request.phase = .loaded →
      request.snap.version = s.reloader.shared.version ∨ s.held request.snap.version = true
  | .readPerEvent i => ∀ request ∈ s.requests[i]?, request.wantsEvents = true →
    s.newest.config.perEventHooks = request.snap.config.perEventHooks
  | _ => True

instance (host : NodeHost) (s : Node) : ∀ action, Decidable (s.Orderly host action)
  | .reload files (some text) =>
    inferInstanceAs (Decidable ((s.begin host files none text).storing.isSome → ∀ request ∈ s.requests,
      request.phase = .loaded →
        request.snap.version = s.reloader.shared.version ∨ s.held request.snap.version = true))
  | .readPerEvent i =>
    inferInstanceAs (Decidable (∀ request ∈ s.requests[i]?, request.wantsEvents = true →
      s.newest.config.perEventHooks = request.snap.config.perEventHooks))
  | .reload _ none => isTrue trivial
  | .push _ _ => isTrue trivial
  | .store => isTrue trivial
  | .load => isTrue trivial
  | .bind _ _ => isTrue trivial
  | .filter _ _ _ _ => isTrue trivial
  | .finish _ => isTrue trivial
  | .breakGlass _ => isTrue trivial

/-- What an orderly run keeps: a request that has not bound finds its version in the table, the setting is that of the
    config entered last, and a request that is under no pin runs its own version. -/
structure Node.Faithful (host : NodeHost) (s : Node) : Prop where
  bindable : ∀ rt, s.wasm = some rt → ∀ request ∈ s.requests, request.phase = .loaded →
    (rt.byVersion[request.snap.version]?).isSome
  setting : ∀ rt, s.wasm = some rt → rt.perEvent = s.newest.config.perEventHooks
  own : ∀ request ∈ s.requests, (∀ set, request.binding ≠ some (.pinned set)) → request.OwnVersion host.loader

/-! ### Swaps -/

/-- A swap keeps the version it replaces and those that are held. -/
theorem onSwap_keeps {loader : ModuleLoader} {files : Files} {held : Nat → Bool} {rt swapped : WasmRuntime} {old : Nat}
    {next : Snapshot WasmConfig} (swaps : rt.onSwap loader files held old next = .ok swapped) :
    swapped.perEvent = next.config.perEventHooks ∧
      ∀ version, version = old ∨ held version = true → (rt.byVersion[version]?).isSome →
        (swapped.byVersion[version]?).isSome := by
  unfold WasmRuntime.onSwap at swaps
  cases loads : loadSet loader files next.config with
  | error e => simp [loads, Except.map] at swaps
  | ok set =>
    simp only [loads, Except.map, Except.ok.injEq] at swaps
    subst swaps
    refine ⟨rfl, fun version needed entered => ?_⟩
    obtain ⟨found, stored⟩ := Option.isSome_iff_exists.mp entered
    have kept : (decide (next.version ≤ version) || held version || version == old) = true := by
      rcases needed with rfl | holds
      · simp
      · simp [holds]
    rw [Std.TreeMap.getElem?_filter', Std.TreeMap.getElem?_insert]
    split
    · simp [kept]
    · simp [stored, kept]

section

variable {host : NodeHost} {s t : Node}

/-- A reload that stops before the store leaves what it concerns. -/
theorem faithful_begin {files : Files} {text : String} (coupled : s.Coupled host) (faithful : s.Faithful host)
    (free : s.storing = none) (orderly : s.Orderly host (.reload files (some text))) :
    (s.begin host files none text).Faithful host := by
  obtain ⟨rt, wired⟩ := Option.isSome_iff_exists.mp coupled.wired
  have before : s.newest = s.reloader.shared := by rw [Node.newest, free]
  unfold Node.Orderly at orderly
  unfold Node.begin at orderly ⊢
  rcases s.reloader.begin_cases host.texts (s.hook host files) text with
    ⟨outcome, done, -⟩ | ⟨next, version, -, -, done | ⟨wasm, hooked, storing⟩⟩
  · simp only [done]
    exact { faithful with }
  · simp only [done]
    refine { faithful with setting := fun rt wired => ?_ }
    have same := faithful.setting rt wired
    rw [before] at same
    simpa [Node.newest, Node.answer, free] using same
  · simp only [storing, Option.isSome_some, forall_const] at orderly ⊢
    simp only [Node.hook, wired] at hooked
    cases swaps : rt.onSwap host.loader files s.held s.reloader.shared.version next with
    | error e => simp [swaps, Except.map] at hooked
    | ok swapped =>
      simp only [swaps, Except.map, Except.ok.injEq] at hooked
      subst hooked
      obtain ⟨setting, keeps⟩ := onSwap_keeps swaps
      refine ⟨?_, ?_, faithful.own⟩
      · rintro other same request inside isLoaded
        cases same
        exact keeps _ (orderly request inside isLoaded) (faithful.bindable rt wired request inside isLoaded)
      · rintro other same
        cases same
        exact setting

/-- A request that advances past its load leaves the others. -/
theorem faithful_advance (faithful : s.Faithful host) {i : Nat} {ready : Phase → Bool} {next : ReqCtx → ReqCtx}
    (advances : s.advance i ready next = some t)
    (moved : ∀ request ∈ s.requests[i]?, ready request.phase = true →
      (next request).phase ≠ .loaded ∧
        ((∀ set, (next request).binding ≠ some (.pinned set)) → (next request).OwnVersion host.loader)) :
    t.Faithful host := by
  obtain ⟨request, found, isReady, rfl⟩ := advance_cases advances
  obtain ⟨past, own⟩ := moved request found isReady
  refine ⟨?_, faithful.setting, ?_⟩
  · intro rt wired other present isLoaded
    rcases List.mem_or_eq_of_mem_set present with before | rfl
    · exact faithful.bindable rt wired other before isLoaded
    · exact absurd isLoaded past
  · intro other present
    rcases List.mem_or_eq_of_mem_set present with before | rfl
    · exact faithful.own other before
    · exact own

/-- A request binds the modules of its own version, or what is pinned. -/
theorem bind_own (coupled : s.Coupled host) (faithful : s.Faithful host) {request : ReqCtx}
    (inside : request ∈ s.requests) (isLoaded : request.phase = .loaded) (now : Nat)
    (unpinned : ∀ set, (request.bind s now).binding ≠ some (.pinned set)) :
    (request.bind s now).OwnVersion host.loader := by
  obtain ⟨rt, wired⟩ := Option.isSome_iff_exists.mp coupled.wired
  refine ⟨fun binding bound => ?_, fun reads => nomatch reads⟩
  simp only [ReqCtx.bind, wired, Option.map_some, Option.some.injEq] at bound
  have entered := faithful.bindable rt wired request inside isLoaded
  rcases bind_cases rt request.snap.version now with ⟨pin, pinned⟩ | ⟨set, table, stored⟩ | ⟨-, absent⟩
  · refine absurd ?_ (unpinned pin)
    simp [ReqCtx.bind, wired, pinned]
  · exact ⟨set, bound.symm.trans table, coupled.entered rt wired _ (coupled.loaded request inside) set stored⟩
  · simp [absent] at entered

/-- A request that loads finds the version that is served in the table. -/
theorem faithful_load (coupled : s.Coupled host) (faithful : s.Faithful host)
    (loads : s.step host .load = some t) : t.Faithful host := by
  cases loads
  refine ⟨?_, faithful.setting, ?_⟩
  · intro rt wired request inside isLoaded
    rcases List.mem_append.mp inside with before | new
    · exact faithful.bindable rt wired request before isLoaded
    · obtain rfl := List.mem_singleton.mp new
      obtain ⟨older, accepted⟩ := coupled.recent
      refine coupled.kept rt wired s.reloader.shared ?_
      rw [accepted]
      cases storing : s.storing with
      | none => simp
      | some entry => simp
  · intro request inside unpinned
    rcases List.mem_append.mp inside with before | new
    · exact faithful.own request before unpinned
    · obtain rfl := List.mem_singleton.mp new
      exact ⟨fun binding bound => (nomatch bound), fun reads => nomatch reads⟩

/-- A request reads its own setting when the config entered last has the same, or nothing of it wants events. -/
theorem readPerEvent_own (coupled : s.Coupled host) (faithful : s.Faithful host) {request : ReqCtx}
    (own : request.OwnVersion host.loader)
    (orderly : request.wantsEvents = true → s.newest.config.perEventHooks = request.snap.config.perEventHooks) :
    (request.readPerEvent s).OwnVersion host.loader := by
  obtain ⟨rt, wired⟩ := Option.isSome_iff_exists.mp coupled.wired
  refine ⟨own.modules, fun _ => ?_⟩
  have setting := faithful.setting rt wired
  have read : (request.readPerEvent s).perEvent = (rt.perEvent && request.wantsEvents) := by
    simp [ReqCtx.readPerEvent, ReqCtx.wantsEvents, wired]
  have same : (request.readPerEvent s).wantsEvents = request.wantsEvents := rfl
  rw [read, same]
  cases wants : request.wantsEvents with
  | false => simp
  | true =>
    rw [setting, orderly wants]
    rfl

theorem faithful_step : Runs.PreservesWhen (Node.step host) (Node.Orderly host)
    (fun s => s.Coupled host ∧ s.Faithful host) := by
  intro s action t ⟨coupled, faithful⟩ orderly stepped
  refine ⟨coupled_step s action t coupled stepped, ?_⟩
  cases action with
  | reload files text =>
    rcases step_reload stepped with ⟨free, rfl | ⟨read, rfl, rfl⟩⟩
    · exact faithful
    · exact faithful_begin coupled faithful free orderly
  | push head text => simp [Node.step, coupled.wired] at stepped
  | store =>
    obtain ⟨next, push, storing, rfl⟩ := step_store stepped
    refine { faithful with setting := fun rt wired => ?_ }
    have same := faithful.setting rt wired
    simpa [Node.newest, Node.answer, storing] using same
  | load => exact faithful_load coupled faithful stepped
  | bind i now =>
    simp only [Node.step] at stepped
    refine faithful_advance faithful stepped fun request found isLoaded => ⟨fun same => ?_, ?_⟩
    · cases same
    exact bind_own coupled faithful (List.mem_of_getElem? found) (by simpa using isLoaded) now
  | readPerEvent i =>
    simp only [Node.step] at stepped
    refine faithful_advance faithful stepped fun request found isBound => ⟨fun same => ?_, fun unpinned => ?_⟩
    · cases same
    have own := faithful.own request (List.mem_of_getElem? found) unpinned
    exact readPerEvent_own coupled faithful own (orderly request found)
  | filter i passes view guest =>
    simp only [Node.step] at stepped
    refine faithful_advance faithful stepped fun request found isReady => ?_
    have inside := List.mem_of_getElem? found
    have ready : request.phase = .ready := by simpa using isReady
    obtain ⟨phase, calls, filtered, past⟩ := filter_cases request passes view guest
    rw [filtered]
    refine ⟨past, fun unpinned => ?_⟩
    have own := faithful.own request inside unpinned
    exact ⟨own.modules, fun _ => own.perEvent (by rw [ready]; rfl)⟩
  | finish i =>
    simp only [Node.step] at stepped
    refine faithful_advance faithful stepped fun request found _ => ⟨fun same => ?_, fun unpinned => ?_⟩
    · cases same
    have own := faithful.own request (List.mem_of_getElem? found) unpinned
    refine ⟨own.modules, fun reads => ?_⟩
    cases reads
  | breakGlass «until» =>
    obtain ⟨rt, wired, rfl⟩ := step_breakGlass stepped
    refine { faithful with bindable := ?_, setting := ?_ }
    · rintro other same
      cases same
      exact faithful.bindable rt wired
    · rintro other same
      cases same
      exact faithful.setting rt wired

theorem faithful_bootstrapFile {files : Files} {text : String}
    (boots : Node.bootstrapFile host files text = .ok s) : s.Faithful host := by
  unfold Node.bootstrapFile at boots
  split at boots
  · cases boots
  · rename_i reloader first
    unfold WasmRuntime.bootstrap at boots
    cases loads : loadSet host.loader files reloader.shared.config with
    | error e => simp [loads, Except.map] at boots
    | ok set =>
      simp only [loads, Except.map, Except.ok.injEq] at boots
      subst boots
      refine ⟨by simp, ?_, by simp⟩
      rintro rt wired
      cases wired
      rfl

end

/-- In an orderly run every request that is under no pin runs, in every state reached, the modules that the config it
    loaded declares and the event setting of that config. -/
theorem own_version (host : NodeHost) (files : Files) (text : String) (booted : Node)
    (boots : Node.bootstrapFile host files text = .ok booted) (actions : List Action) (s : Node)
    (executed : Runs.exec (Node.step host) booted actions = some s)
    (orderly : Runs.Along (Node.step host) (Node.Orderly host) booted actions) :
    ∀ request ∈ s.requests, (∀ set, request.binding ≠ some (.pinned set)) → request.OwnVersion host.loader :=
  (Runs.exec_preserves_along faithful_step ⟨coupled_bootstrapFile boots, faithful_bootstrapFile boots⟩ orderly
    executed).2.own

/-- A module that wants the events of responses, with the event setting of the config. -/
def eventModule (perEvent : Bool) : WasmConfig :=
  ⟨[⟨"redact", "redact.wasm", some "61", [.onResponseEvent], 1⟩], perEvent⟩

/-- A host on which the text "on" turns events on, and every other text turns them off. -/
def eventHost : NodeHost where
  texts := ⟨fun text => .ok (eventModule (text == "on")), fun text => text⟩
  loader := ⟨[], fun _ bytes => bytes, fun _ => .ok []⟩

def eventFiles : Files := fun _ => .ok [97]

/-- A request reads the setting, a swap turns events off, and a request that loaded before the store binds after it. -/
def swappedOnce : List Action :=
  [.load, .bind 0 100, .readPerEvent 0, .load, .reload eventFiles (some "off"), .store, .bind 1 100]

theorem swapped_once_own_version :
    ∃ s, Node.runFile eventHost eventFiles "on" swappedOnce = some s ∧ s.requests.length = 2 ∧
      ∀ request ∈ s.requests, (∀ set, request.binding ≠ some (.pinned set)) → request.OwnVersion eventHost.loader := by
  have two : (Node.runFile eventHost eventFiles "on" swappedOnce).map (·.requests.length) = some 2 := by
    decide +kernel
  obtain ⟨s, runs, length⟩ := Option.map_eq_some_iff.mp two
  obtain ⟨booted, boots, executed⟩ := runFile_booted runs
  have orderly : ∀ booted ∈ (Node.bootstrapFile eventHost eventFiles "on").toOption,
      Runs.Along (Node.step eventHost) (Node.Orderly eventHost) booted swappedOnce := by
    decide +kernel
  have started : booted ∈ (Node.bootstrapFile eventHost eventFiles "on").toOption := by
    rw [boots]
    rfl
  exact ⟨s, runs, length, own_version eventHost eventFiles "on" booted boots swappedOnce s executed
    (orderly booted started)⟩

/-- Between the load of a request and its binding two swaps drop what it loaded, and it runs no modules; and a swap
    that turns events off takes them from a request of the config that has them on. -/
theorem swaps_take_modules_and_events :
    (¬ ∀ host files text actions s, Node.runFile host files text actions = some s → ∀ request ∈ s.requests,
        (∀ set, request.binding ≠ some (.pinned set)) → request.OwnVersion host.loader) ∧
      ¬ ∀ host files text actions s, Node.runFile host files text actions = some s → ∀ request ∈ s.requests,
        (∀ set, request.binding ≠ some (.pinned set)) → request.binding ≠ some .missing := by
  constructor
  · intro claimed
    have fates : (Node.runFile eventHost eventFiles "on"
        [.load, .reload eventFiles (some "off"), .bind 0 100, .readPerEvent 0]).map
          (fun s => s.requests.map fun request => (request.phase, request.binding, request.perEvent,
            request.snap.config.perEventHooks)) =
        some [(.ready, some (.table 1 ⟨[⟨⟨"redact", [97]⟩, [.onResponseEvent], 1⟩]⟩), false, true)] := by
      decide +kernel
    obtain ⟨s, runs, fate⟩ := Option.map_eq_some_iff.mp fates
    obtain ⟨request, only, fate⟩ := List.map_eq_singleton_iff.mp fate
    simp only [Prod.mk.injEq] at fate
    obtain ⟨ready, bound, silent, events⟩ := fate
    have own := claimed _ _ _ _ s runs request (by simp [only]) (by simp [bound])
    have setting := own.perEvent (by rw [ready]; rfl)
    rw [silent, events, ReqCtx.wantsEvents, bound] at setting
    exact absurd setting (by decide)
  · intro claimed
    have fates : (Node.runFile eventHost eventFiles "on"
        [.load, .reload eventFiles (some "off"), .store, .reload eventFiles (some "on"), .store, .bind 0 100]).map
          (fun s => s.requests.map (·.binding)) = some [some .missing] := by
      decide +kernel
    obtain ⟨s, runs, fate⟩ := Option.map_eq_some_iff.mp fates
    obtain ⟨request, only, bound⟩ := List.map_eq_singleton_iff.mp fate
    exact claimed _ _ _ _ s runs request (by simp [only]) (by simp [bound]) bound

end SmallGateway
