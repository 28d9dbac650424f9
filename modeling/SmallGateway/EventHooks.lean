import SmallGateway.StreamCharges
import SmallGateway.WasmModules

/-!
The event hook of the policy modules (`gateway-wasm/src/{abi,bind}.rs`, `event_cut_reason` in
`gatewayd/src/proxy_wasm.rs`): every event of a response goes through the chain of the modules that implement the hook,
and what the chain decides is reduced to a reason to cut the stream, or none.

A module that changes headers has nothing to say about an event, and its answer is ignored, but the chain has ended with
it: the modules after it are not asked, and a cut by one of them is lost. `asksAll_iff` says exactly when the outcome is
what it would be if every module were asked, and `chunk_cut_iff` carries this to the events of a chunk.
-/

namespace SmallGateway

/-- An event as a guest reads it. -/
inductive WireEvent
  | messageStart (messageId model : Option String)
  | contentDelta (index : Nat) (text : String)
  | toolCallDelta (index : Nat) (id name : Option String) (argumentsDelta : String)
  | usageDelta (inputTokens outputTokens : Option Nat)
  | messageEnd (stopReason : Option String)
  | error (code message : String)
  deriving DecidableEq

def WireEvent.ofEvent : Event → WireEvent
  | .messageStart messageId model => .messageStart messageId model
  | .contentDelta index text => .contentDelta index text
  | .toolCallDelta index id name argumentsDelta => .toolCallDelta index id name argumentsDelta
  | .usageDelta inputTokens outputTokens => .usageDelta inputTokens outputTokens
  | .messageEnd stopReason => .messageEnd stopReason
  | .error code message => .error code message

/-- An event with the estimate of the output tokens so far. -/
structure EventView where
  event : WireEvent
  estOutputTokens : Nat
  deriving DecidableEq

/-- What the guests would answer to an event. The modules of a config have different names, so a module stands for its
    guest. -/
abbrev EventGuests := LoadedModule → EventView → Answer

def EventGuests.answersTo (guests : EventGuests) (event : Event) (estOutputTokens : Nat) : LoadedModule → Answer :=
  fun module => guests module ⟨.ofEvent event, estOutputTokens⟩

/-- Runs the chain of the event hook. -/
def ModuleSet.onResponseEvent (guests : EventGuests) (set : ModuleSet) (view : EventView) : Decision :=
  (chain .onResponseEvent (fun module => guests module view) (set.forHook .onResponseEvent)).1

/-- The reason of a decision to cut the stream. -/
def Decision.cutReason : Decision → Option String
  | .continues | .mutateHeaders _ _ => none
  | .cutStream reason | .reject reason => some reason

def eventCutReason (guests : EventGuests) (set : ModuleSet) (event : Event) (estOutputTokens : Nat) : Option String :=
  (set.onResponseEvent guests ⟨.ofEvent event, estOutputTokens⟩).cutReason

namespace EventHooks

/-- A module that answers so rejects, cuts or has failed. -/
def Stops : Answer → Prop
  | .ok .continues | .ok (.mutateHeaders _ _) => False
  | .ok (.reject _) | .ok (.cutStream _) | .error _ => True

def Mutates (answer : Answer) : Prop := ∃ set remove, answer = .ok (.mutateHeaders set remove)

/-- The answer with a header mutation left out. -/
def withoutMutation : Answer → Answer
  | .ok (.mutateHeaders _ _) => .ok .continues
  | answer => answer

/-- Every module counts: the stream is cut exactly when one of them stops it, and to change headers is to continue. -/
structure AsksAll (guests : EventGuests) (set : ModuleSet) (event : Event) (estOutputTokens : Nat) : Prop where
  cuts : (eventCutReason guests set event estOutputTokens).isSome = true ↔
    ∃ module ∈ set.forHook .onResponseEvent, Stops (guests.answersTo event estOutputTokens module)
  mutations : eventCutReason guests set event estOutputTokens =
    eventCutReason (fun module view => withoutMutation (guests module view)) set event estOutputTokens

/-- A module that changes headers is the first one that does not continue, and a later one stops. -/
def HidesStop (answer : LoadedModule → Answer) (modules : List LoadedModule) : Prop :=
  ∃ before mutating after, modules = before ++ mutating :: after ∧
    (∀ module ∈ before, answer module = .ok .continues) ∧ Mutates (answer mutating) ∧
      ∃ module ∈ after, Stops (answer module)

/-! ### Chains -/

/-- The reason that the chain of the event hook ends in. -/
def chainReason (answer : LoadedModule → Answer) (modules : List LoadedModule) : Option String :=
  (chain .onResponseEvent answer modules).1.cutReason

theorem answer_cases (answer : Answer) : answer = .ok .continues ∨ Mutates answer ∨ Stops answer := by
  rcases answer with fault | decision
  · exact .inr (.inr trivial)
  · cases decision with
    | continues => exact .inl rfl
    | mutateHeaders set remove => exact .inr (.inl ⟨set, remove, rfl⟩)
    | reject reason => exact .inr (.inr trivial)
    | cutStream reason => exact .inr (.inr trivial)

section

variable {answer : LoadedModule → Answer} {module : LoadedModule} {rest modules : List LoadedModule}

theorem chainReason_continues (continues : answer module = .ok .continues) :
    chainReason answer (module :: rest) = chainReason answer rest := by
  rw [chainReason, chain, continues]
  rfl

theorem chainReason_mutates (mutates : Mutates (answer module)) : chainReason answer (module :: rest) = none := by
  obtain ⟨set, remove, mutated⟩ := mutates
  rw [chainReason, chain, mutated]
  rfl

/-- A fault cuts the stream like a decision to do so. -/
theorem chainReason_stops (stops : Stops (answer module)) :
    (chainReason answer (module :: rest)).isSome = true ∧
      chainReason answer (module :: rest) = chainReason (fun m => withoutMutation (answer m)) (module :: rest) := by
  rw [chainReason, chainReason, chain, chain]
  rcases answered : answer module with fault | decision
  · exact ⟨rfl, rfl⟩
  · rw [answered] at stops
    cases decision with
    | continues => exact stops.elim
    | mutateHeaders set remove => exact stops.elim
    | reject reason => exact ⟨rfl, rfl⟩
    | cutStream reason => exact ⟨rfl, rfl⟩

theorem hidesStop_continues (continues : answer module = .ok .continues) :
    HidesStop answer (module :: rest) ↔ HidesStop answer rest := by
  constructor
  · rintro ⟨before, mutating, after, parts, quiet, mutates, stops⟩
    cases before with
    | nil =>
      obtain ⟨rfl, rfl⟩ := List.cons.inj parts
      obtain ⟨set, remove, mutated⟩ := mutates
      rw [continues] at mutated
      cases mutated
    | cons first before =>
      obtain ⟨rfl, rfl⟩ := List.cons.inj parts
      exact ⟨before, mutating, after, rfl, (List.forall_mem_cons.mp quiet).2, mutates, stops⟩
  · rintro ⟨before, mutating, after, rfl, quiet, mutates, stops⟩
    exact ⟨module :: before, mutating, after, rfl, List.forall_mem_cons.mpr ⟨continues, quiet⟩, mutates, stops⟩

theorem hidesStop_mutates (mutates : Mutates (answer module)) (stops : ∃ m ∈ rest, Stops (answer m)) :
    HidesStop answer (module :: rest) :=
  ⟨[], module, rest, rfl, List.forall_mem_nil _, mutates, stops⟩

/-- With a mutation that hides a stop the chain ends in no reason. -/
theorem chainReason_hidden (hides : HidesStop answer modules) : chainReason answer modules = none := by
  obtain ⟨before, mutating, after, rfl, quiet, mutates, -⟩ := hides
  induction before with
  | nil => exact chainReason_mutates mutates
  | cons first before ih =>
    obtain ⟨continues, quiet⟩ := List.forall_mem_cons.mp quiet
    rw [List.cons_append, chainReason_continues continues]
    exact ih quiet

/-- Where no module changes headers, every module counts. -/
theorem chainReason_withoutMutation :
    (chainReason (fun m => withoutMutation (answer m)) modules).isSome = true ↔ ∃ m ∈ modules, Stops (answer m) := by
  induction modules with
  | nil => simp [chainReason, chain, Decision.cutReason]
  | cons module rest ih =>
    rw [List.exists_mem_cons_iff]
    rcases answer_cases (answer module) with continues | mutates | stops
    · rw [chainReason_continues (by rw [continues]; rfl), ih, continues]
      simp [Stops]
    · obtain ⟨set, remove, mutated⟩ := mutates
      rw [chainReason_continues (by rw [mutated]; rfl), ih, mutated]
      simp [Stops]
    · rw [← (chainReason_stops stops).2]
      exact iff_of_true (chainReason_stops stops).1 (.inl stops)

/-- Unless a mutation hides a stop, the mutations make no difference. -/
theorem chainReason_unhidden (open_ : ¬ HidesStop answer modules) :
    chainReason answer modules = chainReason (fun m => withoutMutation (answer m)) modules := by
  induction modules with
  | nil => rfl
  | cons module rest ih =>
    rcases answer_cases (answer module) with continues | mutates | stops
    · rw [hidesStop_continues continues] at open_
      rw [chainReason_continues continues, ih open_, chainReason_continues (by rw [continues]; rfl)]
    · have quiet : ¬ ∃ m ∈ module :: rest, Stops (answer m) := by
        rw [List.exists_mem_cons_iff]
        rintro (own | later)
        · obtain ⟨set, remove, mutated⟩ := mutates
          rw [mutated] at own
          exact own
        · exact open_ (hidesStop_mutates mutates later)
      rw [chainReason_mutates mutates]
      exact (Option.not_isSome_iff_eq_none.mp (chainReason_withoutMutation.not.mpr quiet)).symm
    · exact (chainReason_stops stops).2

end

/-! ### Events -/

/-- An event cuts the stream exactly when a module stops it and no header mutation hides that. -/
theorem eventCutReason_isSome (guests : EventGuests) (set : ModuleSet) (event : Event) (estOutputTokens : Nat) :
    (eventCutReason guests set event estOutputTokens).isSome = true ↔
      (∃ module ∈ set.forHook .onResponseEvent, Stops (guests.answersTo event estOutputTokens module)) ∧
        ¬ HidesStop (guests.answersTo event estOutputTokens) (set.forHook .onResponseEvent) := by
  have reason : eventCutReason guests set event estOutputTokens =
      chainReason (guests.answersTo event estOutputTokens) (set.forHook .onResponseEvent) := rfl
  rw [reason]
  constructor
  · intro cut
    have unhidden : ¬ HidesStop (guests.answersTo event estOutputTokens) (set.forHook .onResponseEvent) := by
      intro hides
      rw [chainReason_hidden hides] at cut
      cases cut
    rw [chainReason_unhidden unhidden, chainReason_withoutMutation] at cut
    exact ⟨cut, unhidden⟩
  · rintro ⟨stops, unhidden⟩
    rw [chainReason_unhidden unhidden]
    exact chainReason_withoutMutation.mpr stops

/-- Every module counts exactly when no header mutation hides a stop. -/
theorem asksAll_iff (guests : EventGuests) (set : ModuleSet) (event : Event) (estOutputTokens : Nat) :
    AsksAll guests set event estOutputTokens ↔
      ¬ HidesStop (guests.answersTo event estOutputTokens) (set.forHook .onResponseEvent) := by
  constructor
  · rintro asksAll ⟨before, mutating, after, parts, quiet, mutates, module, later, stops⟩
    have among : module ∈ set.forHook .onResponseEvent :=
      parts ▸ List.mem_append_right before (List.mem_cons_of_mem _ later)
    have cut := asksAll.cuts.mpr ⟨module, among, stops⟩
    exact ((eventCutReason_isSome guests set event estOutputTokens).mp cut).2
      ⟨before, mutating, after, parts, quiet, mutates, module, later, stops⟩
  · intro unhidden
    refine ⟨?_, chainReason_unhidden unhidden⟩
    rw [eventCutReason_isSome, and_iff_left unhidden]

/-- The events of a chunk, each with the estimate of the output tokens after it. -/
def estimated (meter : Meter) : List Event → List (Event × Nat)
  | [] => []
  | event :: rest => (event, (meter.observe event).estimatedOutputTokens) :: estimated (meter.observe event) rest

/-- The events of a chunk, each with what the bound modules answer to it. -/
def answered (guests : EventGuests) (set : ModuleSet) (meter : Meter) (events : List Event) :
    List (Event × Option String) :=
  (estimated meter events).map fun seen => (seen.1, eventCutReason guests set seen.1 seen.2)

/-- A chunk is cut exactly when the modules are asked and one of its events has a module that stops it, which no header
    mutation hides. -/
theorem chunk_cut_iff (guests : EventGuests) (set : ModuleSet) (wasmPerEvent : Bool) (meter : Meter)
    (events : List Event) :
    (Stream.observeAll wasmPerEvent meter (answered guests set meter events)).2.isSome = true ↔
      wasmPerEvent = true ∧ ∃ seen ∈ estimated meter events,
        (∃ module ∈ set.forHook .onResponseEvent, Stops (guests.answersTo seen.1 seen.2 module)) ∧
          ¬ HidesStop (guests.answersTo seen.1 seen.2) (set.forHook .onResponseEvent) := by
  rw [Stream.observeAll_cut, answered]
  simp only [List.mem_map, exists_exists_and_eq_and, eventCutReason_isSome]

/-! ### A module that tags before one that cuts -/

namespace TaggedFirst

def tagger : LoadedModule := ⟨⟨"tagger", []⟩, [.onResponseEvent], 1⟩

def budget : LoadedModule := ⟨⟨"budget", []⟩, [.onResponseEvent], 1⟩

/-- The one changes headers at every event, the other one cuts the stream. -/
def guests : EventGuests := fun module _ =>
  if module = tagger then .ok (.mutateHeaders [("x-seen", "1")] []) else .ok (.cutStream "over budget")

/-- The cut is lost. -/
theorem cut_after_mutation_lost :
    ¬ ∀ (guests : EventGuests) (set : ModuleSet) (event : Event) (estOutputTokens : Nat),
      AsksAll guests set event estOutputTokens := by
  intro asksAll
  have asks := asksAll guests ⟨[tagger, budget]⟩ (.contentDelta 0 "hi") 1
  have cut := asks.cuts.mpr ⟨budget, by decide, trivial⟩
  revert cut
  decide

end TaggedFirst

end EventHooks

end SmallGateway
