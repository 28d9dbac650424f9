import Mathlib.Algebra.GroupWithZero.Nat
import Mathlib.Data.List.Basic

/-!
The canonical event stream (`gateway-core/src/event.rs`) and the meter that reads it
(`gateway-core/src/metering.rs`): a live estimate of the output tokens from the characters seen, and the
counts the provider last reported. `observe_all` says what the meter holds after any list of events in terms
of the list alone.
-/

namespace SmallGateway

/-- One normalized streaming event. -/
inductive Event where
  | messageStart (messageId model : Option String)
  | contentDelta (index : Nat) (text : String)
  | toolCallDelta (index : Nat) (id name : Option String) (argumentsDelta : String)
  | usageDelta (inputTokens outputTokens : Option Nat)
  | messageEnd (stopReason : Option String)
  | error (code message : String)
  deriving DecidableEq, Repr

/-- Characters for each token of the live estimate. -/
def charsPerToken : Nat := 4

/-- The running count of a stream. -/
structure Meter where
  outputChars : Nat
  authoritativeInput : Option Nat
  authoritativeOutput : Option Nat
  deriving DecidableEq, Repr

/-- The estimate for a number of characters, rounded up. -/
def tokensOfChars (chars : Nat) : Nat := (chars + (charsPerToken - 1)) / charsPerToken

/-- What a meter reports when the stream ends. -/
structure MeterReport where
  estimatedOutputTokens : Nat
  authoritativeInputTokens : Option Nat
  authoritativeOutputTokens : Option Nat
  deriving DecidableEq, Repr

namespace Meter

def new : Meter := ⟨0, none, none⟩

def observe (meter : Meter) : Event → Meter
  | .contentDelta _ text => { meter with outputChars := meter.outputChars + text.length }
  | .toolCallDelta _ _ _ argumentsDelta =>
    { meter with outputChars := meter.outputChars + argumentsDelta.length }
  | .usageDelta inputTokens outputTokens =>
    { meter with
      authoritativeInput := if inputTokens.isSome then inputTokens else meter.authoritativeInput
      authoritativeOutput := if outputTokens.isSome then outputTokens else meter.authoritativeOutput }
  | _ => meter

def estimatedOutputTokens (meter : Meter) : Nat := tokensOfChars meter.outputChars

def report (meter : Meter) : MeterReport :=
  ⟨meter.estimatedOutputTokens, meter.authoritativeInput, meter.authoritativeOutput⟩

/-- The counts a meter reports. -/
def counts (meter : Meter) : Option Nat × Option Nat := (meter.authoritativeInput, meter.authoritativeOutput)

end Meter

/-! ### What a list of events amounts to -/

/-- The characters of output an event carries. -/
def Event.chars : Event → Nat
  | .contentDelta _ text => text.length
  | .toolCallDelta _ _ _ argumentsDelta => argumentsDelta.length
  | _ => 0

/-- The event reports no count. -/
def Event.uncounted : Event → Bool
  | .usageDelta _ _ => false
  | _ => true

/-- The output count an event reports. -/
def Event.reportedOutput : Event → Option Nat
  | .usageDelta _ outputTokens => outputTokens
  | _ => none

/-- The estimate of the output tokens of a list of events. -/
def estimateOf (events : List Event) : Nat := tokensOfChars (events.map Event.chars).sum

/-- The output count the last usage event with one reported. -/
def reportedOutputOf (events : List Event) : Option Nat :=
  (events.filterMap Event.reportedOutput).getLast?

theorem tokensOfChars_mono {a b : Nat} (le : a ≤ b) : tokensOfChars a ≤ tokensOfChars b :=
  Nat.div_le_div_right (Nat.add_le_add_right le _)

theorem observe_outputChars (meter : Meter) (event : Event) :
    (meter.observe event).outputChars = meter.outputChars + event.chars := by
  cases event <;> rfl

theorem observe_authoritativeOutput (meter : Meter) (event : Event) :
    (meter.observe event).authoritativeOutput =
      if event.reportedOutput.isSome then event.reportedOutput else meter.authoritativeOutput := by
  cases event <;> rfl

/-- The meter after a list of events: the characters add up, and the last reported count stands. -/
theorem observe_all (meter : Meter) (events : List Event) :
    (events.foldl Meter.observe meter).outputChars =
        meter.outputChars + (events.map Event.chars).sum ∧
      (events.foldl Meter.observe meter).authoritativeOutput =
        (reportedOutputOf events).or meter.authoritativeOutput := by
  induction events generalizing meter with
  | nil => simp [reportedOutputOf]
  | cons event events ih =>
    obtain ⟨chars, output⟩ := ih (meter.observe event)
    constructor
    · rw [List.foldl_cons, chars, observe_outputChars, List.map_cons, List.sum_cons, Nat.add_assoc]
    · rw [List.foldl_cons, output, observe_authoritativeOutput]
      cases reported : event.reportedOutput with
      | none => simp [reportedOutputOf, reported]
      | some count =>
        have later : reportedOutputOf (event :: events) = (reportedOutputOf events).or (some count) := by
          simp [reportedOutputOf, reported, List.getLast?_cons]
        rw [later]
        cases reportedOutputOf events <;> simp

/-- Events that report no count leave the counts. -/
theorem observe_uncounted (meter : Meter) {events : List Event} (uncounted : ∀ event ∈ events, event.uncounted = true) :
    (events.foldl Meter.observe meter).counts = meter.counts := by
  induction events generalizing meter with
  | nil => rfl
  | cons event events ih =>
    rw [List.foldl_cons, ih _ fun event found => uncounted event (List.mem_cons_of_mem _ found)]
    have none := uncounted event List.mem_cons_self
    cases event <;> first | rfl | cases none

/-- What a new meter reports after a list of events. -/
theorem observe_new (events : List Event) :
    (events.foldl Meter.observe .new).estimatedOutputTokens = estimateOf events ∧
      (events.foldl Meter.observe .new).authoritativeOutput = reportedOutputOf events := by
  obtain ⟨chars, reported⟩ := observe_all .new events
  constructor
  · rw [Meter.estimatedOutputTokens, chars]
    simp [estimateOf, Meter.new]
  · rw [reported]
    simp [Meter.new]

/-- An output count is reported exactly when some event reports one. -/
theorem reportedOutputOf_isSome (events : List Event) :
    (reportedOutputOf events).isSome = true ↔ ∃ event ∈ events, event.reportedOutput.isSome = true := by
  rw [reportedOutputOf, List.getLast?_isSome, ne_eq, List.filterMap_eq_nil_iff]
  simp [Option.isSome_iff_ne_none]

/-- The estimate of some events is not nothing exactly when one of them carries a character. -/
theorem estimateOf_pos (events : List Event) :
    0 < estimateOf events ↔ ∃ event ∈ events, event.chars ≠ 0 := by
  have rounded : 0 < estimateOf events ↔ 0 < (events.map Event.chars).sum := by
    unfold estimateOf tokensOfChars charsPerToken
    omega
  rw [rounded, List.sum_pos_iff_exists_pos_nat]
  simp [Nat.pos_iff_ne_zero]

theorem estimate_mono (meter : Meter) (events : List Event) :
    meter.estimatedOutputTokens ≤ (events.foldl Meter.observe meter).estimatedOutputTokens := by
  unfold Meter.estimatedOutputTokens
  rw [(observe_all meter events).1]
  exact tokensOfChars_mono (Nat.le_add_right _ _)

end SmallGateway
