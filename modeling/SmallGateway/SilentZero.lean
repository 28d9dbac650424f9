import SmallGateway.ResponseTap

/-!
No response of a capped request ought to be billed nothing without a stamp. Under the terminal-parse tap none is:
its count is charged or the request is stamped. A provider stream is settled without ever being stamped, so it is
silent unless the bytes that are read report an output count or the chunks that are charged carry a character of
output (`no_silent_zero_iff`). The condition is on the bytes of the body and the answers of the modules alone; a cut
by a cap only comes after a charge.
-/

namespace SmallGateway

namespace Stream

/-- The tokens of its estimate that a step of the stream charges, to whichever spender. -/
def chargedTokens (s : State) : Action → State → Nat
  | .charge _, _ => (s.phase.nextCharge.map (·.delta)).getD 0
  | _, _ => 0

/-- The tokens of its estimate that a run of the stream charges. -/
def chargedEstimate (s : State) (actions : List Action) : Nat := (Runs.trace step chargedTokens s actions).sum

/-- A count of the provider was charged, or a part of the estimate was, or the request is stamped. -/
def NoSilentZero (s : State) (actions : List Action) (t : State) : Prop :=
  authoritativeCharges s actions ≠ [] ∨ 0 < chargedEstimate s actions ∨ t.ctx.error.isSome = true

instance (s : State) (actions : List Action) (t : State) : Decidable (NoSilentZero s actions t) :=
  inferInstanceAs (Decidable (_ ∨ _ ∨ _))

/-- No step of a provider stream stamps the request. -/
theorem stream_error {s t : State} {action : Action} (tap : s.ctx.tap = some .stream)
    (stepped : step s action = some t) :
    t.ctx.error = s.ctx.error ∧ t.ctx.wasmPerEvent = s.ctx.wasmPerEvent := by
  cases step_moved stepped with
  | chunk idle unsettled =>
    unfold filterChunk
    split
    · exact ⟨rfl, rfl⟩
    · dsimp only
      split
      · exact ⟨rfl, rfl⟩
      · exact ⟨rfl, rfl⟩
  | @finished events abort waiting finishes =>
    obtain rfl : events = [] := finishes (by rw [tap]; decide)
    unfold settleStream
    split
    · exact ⟨rfl, rfl⟩
    · simp [tap]
  | _ => exact ⟨rfl, rfl⟩

end Stream

namespace Response

open SmallGateway.Stream (CapList)

/-- What is read of a body when no cap cuts it: the tap after it, whether a module has cut it, the events of the
    chunks that are charged and those of all that are read. -/
structure Reading where
  tap : BodyTap
  cut : Bool
  charged : List Event
  read : List Event

section

variable (json : JsonText) (crc32 : List UInt8 → Nat) (wasmPerEvent : Bool)

/-- A bound module cuts a chunk. -/
def moduleCuts (events : List Event) (answer : Nat → Option String) : Bool :=
  wasmPerEvent && (answered events answer).any (·.2.isSome)

/-- A chunk after a cut is read when it is the last one, and never charged. -/
def Reading.chunk (reading : Reading) (bytes : List UInt8) (answer : Nat → Option String) (endOfStream : Bool) :
    Reading :=
  if reading.cut && !endOfStream then reading
  else
    let (events, tap) := reading.tap.feedChunk json crc32 bytes
    let cut := reading.cut || moduleCuts wasmPerEvent events answer
    { tap, cut
      charged := if cut then reading.charged else reading.charged ++ events
      read := reading.read ++ events }

def Reading.step (reading : Reading) : Action → Reading
  | .chunk bytes answer endOfStream => reading.chunk json crc32 wasmPerEvent bytes answer endOfStream
  | _ => reading

/-- What is read of the body of a stream of the dialect. -/
def readingOf (kind : ProviderKind) (actions : List Action) : Reading :=
  actions.foldl (Reading.step json crc32 wasmPerEvent) ⟨kind.bodyTap, false, [], []⟩

/-- What is read of the stream reports an output count, or what is charged of it carries a character of output. -/
def Counted (kind : ProviderKind) (actions : List Action) : Prop :=
  (∃ event ∈ (readingOf json crc32 wasmPerEvent kind actions).read, event.reportedOutput.isSome = true) ∨
    ∃ event ∈ (readingOf json crc32 wasmPerEvent kind actions).charged, event.chars ≠ 0

instance (kind : ProviderKind) (actions : List Action) :
    Decidable (Counted json crc32 wasmPerEvent kind actions) :=
  inferInstanceAs (Decidable (_ ∨ _))

end

section

variable {json : JsonText} {crc32 : List UInt8 → Nat} {wasmPerEvent : Bool}

theorem readingOf_snoc (kind : ProviderKind) (actions : List Action) (action : Action) :
    readingOf json crc32 wasmPerEvent kind (actions ++ [action]) =
      (readingOf json crc32 wasmPerEvent kind actions).step json crc32 wasmPerEvent action := by
  simp [readingOf]

/-- No more than what is charged already becomes uncharged. -/
theorem Reading.step_charged (reading : Reading) (action : Action) :
    reading.charged ⊆ (reading.step json crc32 wasmPerEvent action).charged := by
  intro event inside
  cases action with
  | chunk bytes answer endOfStream =>
    simp only [Reading.step, Reading.chunk]
    split
    · exact inside
    · dsimp only
      split
      · exact inside
      · exact List.mem_append_left _ inside
  | _ => exact inside

/-- A provider stream while nothing of it has been charged: what it has read is the reading of its body, of which
    nothing that is charged carries output. -/
private structure Silent (reading : Reading) (response : Response) : Prop where
  tap : response.tap = some reading.tap
  cut : response.stream.ctx.cut = reading.cut
  meter : response.stream.ctx.meter = reading.read.foldl Meter.observe .new
  last : response.stream.ctx.lastMeteredEst = 0
  nothing : estimateOf reading.charged = 0
  whole : reading.cut = false → reading.read = reading.charged

/-- A part of the stream's estimate has been charged or is about to be. -/
private def Charges (response : Response) (tokens : Nat) : Prop :=
  0 < tokens ∨ ∃ delta pending endOfStream, response.stream.phase = .charging delta pending endOfStream

/-- A provider stream over a run: its reading so far, and the tokens it has charged. -/
private structure Watched (bound : CapList) (wasmPerEvent : Bool) (reading : Reading) (tokens : Nat)
    (response : Response) : Prop where
  coherent : Stream.Coherent bound response.stream
  wasm : response.stream.ctx.wasmPerEvent = wasmPerEvent
  error : response.stream.ctx.error = none
  loud : Charges response tokens → 0 < estimateOf reading.charged
  silent : ¬ Charges response tokens → Silent reading response

variable {bound : CapList} {reading : Reading} {tokens : Nat} {response : Response}

private theorem Watched.stillLoud (watched : Watched bound wasmPerEvent reading tokens response)
    (charges : Charges response tokens) (action : Action) :
    0 < estimateOf (reading.step json crc32 wasmPerEvent action).charged := by
  obtain ⟨event, inside, chars⟩ := (estimateOf_pos _).mp (watched.loud charges)
  exact (estimateOf_pos _).mpr ⟨event, reading.step_charged action inside, chars⟩

private theorem not_charging_afterCharges (delta : Nat) (pending : List (CapId × CapTerms)) (more endOfStream : Bool) :
    Stream.afterCharges more ≠ .charging delta pending endOfStream := by
  cases more
  · exact nofun
  · exact nofun

/-- What the reading of a silent stream reads of a chunk is what the stream reads. -/
private theorem Silent.read (silent : Silent reading response) (json : JsonText) (crc32 : List UInt8 → Nat)
    {endOfStream : Bool}
    (fed : response.tears endOfStream = false) (bytes : List UInt8) :
    response.read json crc32 bytes endOfStream = (reading.tap.feedChunk json crc32 bytes).map id some := by
  unfold Response.read
  rw [if_neg (by simp [fed]), silent.tap]

private theorem moduleCuts_iff (watched : Watched bound wasmPerEvent reading tokens response) (events : List Event)
    (answer : Nat → Option String) :
    moduleCuts wasmPerEvent events answer = true ↔ response.stream.ctx.ModuleCuts (answered events answer) := by
  simp [moduleCuts, Stream.ReqCtx.ModuleCuts, watched.wasm]

/-- A chunk that a cut stream does not read. -/
private theorem Watched.torn (watched : Watched bound wasmPerEvent reading tokens response) {bytes : List UInt8}
    {answer : Nat → Option String} (cut : response.stream.ctx.cut = true) {next : Response}
    (tap : next.tap = (response.read json crc32 bytes false).2) (same : next.stream = response.stream) :
    Watched bound wasmPerEvent (reading.chunk json crc32 wasmPerEvent bytes answer false) tokens next := by
  have charges : Charges next tokens ↔ Charges response tokens := by rw [Charges, Charges, same]
  refine ⟨same ▸ watched.coherent, same ▸ watched.wasm, same ▸ watched.error, fun loud => ?_, fun silent => ?_⟩
  · exact watched.stillLoud (charges.mp loud) (.chunk bytes answer false)
  · have held := watched.silent (charges.not.mp silent)
    have cutReading : reading.cut = true := held.cut.symm.trans cut
    have unread : reading.chunk json crc32 wasmPerEvent bytes answer false = reading := by
      simp [Reading.chunk, cutReading]
    have tears : response.tears false = true := by simp [tears, cut]
    rw [Response.read, if_pos tears] at tap
    rw [unread]
    exact ⟨tap.trans held.tap, same ▸ held.cut, same ▸ held.meter, same ▸ held.last, held.nothing, held.whole⟩

/-- A chunk that is read and not charged. -/
private theorem Watched.uncharged (watched : Watched bound wasmPerEvent reading tokens response)
    {bytes : List UInt8} {answer : Nat → Option String} {endOfStream : Bool} (idle : response.stream.phase = .idle)
    (fed : response.tears endOfStream = false)
    (cut : response.stream.ctx.cut = true ∨
      response.stream.ctx.ModuleCuts (answered (response.read json crc32 bytes endOfStream).1 answer))
    {next : Response} (coherent : Stream.Coherent bound next.stream)
    (tap : next.tap = (response.read json crc32 bytes endOfStream).2)
    (stream : next.stream = { response.stream with
      ctx := { response.stream.ctx with
        meter := (response.read json crc32 bytes endOfStream).1.foldl Meter.observe response.stream.ctx.meter
        cut := true }
      phase := Stream.afterCharges endOfStream }) :
    Watched bound wasmPerEvent (reading.chunk json crc32 wasmPerEvent bytes answer endOfStream) tokens next := by
  have charges : Charges next tokens ↔ Charges response tokens := by
    simp [Charges, stream, idle, not_charging_afterCharges]
  refine ⟨coherent, ?_, ?_, fun loud => ?_, fun silent => ?_⟩
  · rw [stream]
    exact watched.wasm
  · rw [stream]
    exact watched.error
  · exact watched.stillLoud (charges.mp loud) (.chunk bytes answer endOfStream)
  · have held := watched.silent (charges.not.mp silent)
    have reads := held.read json crc32 fed bytes
    have cuts : (reading.cut || moduleCuts wasmPerEvent (reading.tap.feedChunk json crc32 bytes).1 answer) = true := by
      rw [Bool.or_eq_true]
      rcases cut with before | now
      · exact Or.inl (held.cut.symm.trans before)
      · rw [reads] at now
        exact Or.inr ((moduleCuts_iff watched _ answer).mpr now)
    have unread : (reading.cut && !endOfStream) = false := by rw [← held.cut]; exact fed
    have after : reading.chunk json crc32 wasmPerEvent bytes answer endOfStream =
        { tap := (reading.tap.feedChunk json crc32 bytes).2, cut := true, charged := reading.charged
          read := reading.read ++ (reading.tap.feedChunk json crc32 bytes).1 } := by
      simp [Reading.chunk, unread, cuts]
    rw [after]
    rw [reads] at tap stream
    refine ⟨tap, by rw [stream], ?_, by rw [stream]; exact held.last, held.nothing, fun uncut => nomatch uncut⟩
    rw [stream, List.foldl_append, ← held.meter]
    rfl

/-- A chunk whose new tokens are charged. -/
private theorem Watched.charged (watched : Watched bound wasmPerEvent reading tokens response)
    (capped : bound.caps ≠ []) {bytes : List UInt8} {answer : Nat → Option String} {endOfStream : Bool}
    (idle : response.stream.phase = .idle) (uncut : response.stream.ctx.cut = false)
    (allowed : ¬ response.stream.ctx.ModuleCuts (answered (response.read json crc32 bytes endOfStream).1 answer))
    {next : Response} (coherent : Stream.Coherent bound next.stream)
    (tap : next.tap = (response.read json crc32 bytes endOfStream).2) (meter : Meter)
    (fed : meter = (response.read json crc32 bytes endOfStream).1.foldl Meter.observe response.stream.ctx.meter)
    (stream : next.stream = { response.stream with
      ctx := { response.stream.ctx with meter := meter, lastMeteredEst := meter.estimatedOutputTokens }
      phase := if meter.estimatedOutputTokens - response.stream.ctx.lastMeteredEst = 0 then
          Stream.afterCharges endOfStream
        else Stream.chargePhase (meter.estimatedOutputTokens - response.stream.ctx.lastMeteredEst)
          response.stream.ctx.caps.caps endOfStream }) :
    Watched bound wasmPerEvent (reading.chunk json crc32 wasmPerEvent bytes answer endOfStream) tokens next := by
  by_cases loud : Charges response tokens
  · -- What was charged before this chunk stays charged.
    have before : 0 < tokens := by
      rcases loud with paid | ⟨delta, pending, more, charging⟩
      · exact paid
      · rw [idle] at charging
        cases charging
    refine ⟨coherent, by rw [stream]; exact watched.wasm, by rw [stream]; exact watched.error, fun _ => ?_, ?_⟩
    · exact watched.stillLoud loud (.chunk bytes answer endOfStream)
    · exact fun silent => absurd (Or.inl before) silent
  · have held := watched.silent loud
    have unpaid : ¬ 0 < tokens := fun paid => loud (Or.inl paid)
    have reads := held.read json crc32 (show response.tears endOfStream = false by simp [tears, uncut]) bytes
    have readingUncut : reading.cut = false := held.cut.symm.trans uncut
    rw [reads] at tap fed allowed
    have uncuts : moduleCuts wasmPerEvent (reading.tap.feedChunk json crc32 bytes).1 answer = false := by
      rw [Bool.eq_false_iff]
      exact fun now => allowed ((moduleCuts_iff watched _ answer).mp now)
    have after : reading.chunk json crc32 wasmPerEvent bytes answer endOfStream =
        { tap := (reading.tap.feedChunk json crc32 bytes).2, cut := false
          charged := reading.charged ++ (reading.tap.feedChunk json crc32 bytes).1
          read := reading.read ++ (reading.tap.feedChunk json crc32 bytes).1 } := by
      simp [Reading.chunk, readingUncut, uncuts]
    have meters : meter =
        (reading.read ++ (reading.tap.feedChunk json crc32 bytes).1).foldl Meter.observe .new := by
      rw [fed, List.foldl_append, ← held.meter]
      rfl
    have estimate : meter.estimatedOutputTokens =
        estimateOf (reading.charged ++ (reading.tap.feedChunk json crc32 bytes).1) := by
      rw [meters, (observe_new _).1, held.whole readingUncut]
    rw [held.last, Nat.sub_zero] at stream
    rw [after]
    refine ⟨coherent, by rw [stream]; exact watched.wasm, by rw [stream]; exact watched.error, ?_, ?_⟩
    · rintro (paid | ⟨delta, pending, more, charging⟩)
      · exact absurd paid unpaid
      · rw [stream] at charging
        by_cases nothing : meter.estimatedOutputTokens = 0
        · rw [if_pos nothing] at charging
          exact absurd charging (not_charging_afterCharges _ _ _ _)
        · rw [← estimate]
          exact Nat.pos_of_ne_zero nothing
    · intro silent
      have nothing : meter.estimatedOutputTokens = 0 := by
        by_contra some
        refine silent (Or.inr ⟨meter.estimatedOutputTokens, bound.caps, endOfStream, ?_⟩)
        rw [stream, if_neg some, watched.coherent.caps]
        simp [Stream.chargePhase, capped]
      refine ⟨tap, by rw [stream]; exact uncut, by rw [stream]; exact meters, by rw [stream]; exact nothing, ?_, ?_⟩
      · rw [← estimate]
        exact nothing
      · intro _
        rw [held.whole readingUncut]

/-- A step of a watched stream that reads no chunk. -/
private theorem Watched.unread (watched : Watched bound wasmPerEvent reading tokens response) {more : Nat}
    {next : Response} (coherent : Stream.Coherent bound next.stream) (tap : next.tap = response.tap)
    (charges : Charges next (tokens + more) ↔ Charges response tokens)
    (cut : ¬ Charges response tokens → next.stream.ctx.cut = response.stream.ctx.cut)
    (same : next.stream.ctx.meter = response.stream.ctx.meter ∧
      next.stream.ctx.lastMeteredEst = response.stream.ctx.lastMeteredEst ∧
      next.stream.ctx.wasmPerEvent = response.stream.ctx.wasmPerEvent ∧
      next.stream.ctx.error = response.stream.ctx.error) :
    Watched bound wasmPerEvent reading (tokens + more) next := by
  obtain ⟨meter, last, wasm, error⟩ := same
  refine ⟨coherent, wasm.trans watched.wasm, error.trans watched.error, fun loud => ?_, fun silent => ?_⟩
  · exact watched.loud (charges.mp loud)
  · have held := watched.silent (charges.not.mp silent)
    exact ⟨tap.trans held.tap, (cut (charges.not.mp silent)).trans held.cut, meter.trans held.meter,
      last.trans held.last, held.nothing, held.whole⟩

/-- A charge of a chunk's tokens. -/
private theorem Watched.paid (watched : Watched bound wasmPerEvent reading tokens response) {delta : Nat} {id : CapId}
    {terms : CapTerms} {rest : List (CapId × CapTerms)} {endOfStream : Bool} (nowUnix : Nat)
    (charging : response.stream.phase = .charging delta ((id, terms) :: rest) endOfStream) {next : Response}
    (coherent : Stream.Coherent bound next.stream) (tap : next.tap = response.tap)
    (same : next.stream.ctx.meter = response.stream.ctx.meter ∧
      next.stream.ctx.lastMeteredEst = response.stream.ctx.lastMeteredEst ∧
      next.stream.ctx.wasmPerEvent = response.stream.ctx.wasmPerEvent ∧
      next.stream.ctx.error = response.stream.ctx.error) :
    Watched bound wasmPerEvent reading
      (tokens + Stream.chargedTokens response.stream (.charge nowUnix) next.stream) next := by
  have owed := watched.coherent.owed _ _ _ charging
  have loud : Charges response tokens := Or.inr ⟨_, _, _, charging⟩
  refine watched.unread coherent tap ⟨fun _ => loud, fun _ => Or.inl ?_⟩ (absurd loud) same
  simp only [Stream.chargedTokens, charging, Stream.Phase.nextCharge, Option.map_some, Option.getD_some]
  omega

private theorem watched_step (capped : bound.caps ≠ []) {action : Action} {next : Response}
    (watched : Watched bound wasmPerEvent reading tokens response)
    (made : step json crc32 response action = some next) :
    Watched bound wasmPerEvent (reading.step json crc32 wasmPerEvent action)
      (tokens + Stream.chargedTokens response.stream (response.call json crc32 action) next.stream) next := by
  obtain ⟨-, streamed, tap, -⟩ := step_eq_some.mp made
  have stepped := Stream.step_stepped capped watched.coherent streamed
  have coherent := stepped.coherent watched.coherent
  obtain ⟨error, wasm⟩ := Stream.stream_error watched.coherent.tap streamed
  cases action with
  | chunk bytes answer endOfStream =>
    obtain ⟨nextTap, torn, stream⟩ := next
    simp only [call] at stepped
    show Watched bound wasmPerEvent (reading.chunk json crc32 wasmPerEvent bytes answer endOfStream) tokens _
    cases stepped with
    | torn idle cut => exact watched.torn cut tap rfl
    | uncharged idle fed cut =>
      refine watched.uncharged idle fed cut coherent tap ?_
      simp [Stream.ReqCtx.fed]
    | charged idle uncut allowed =>
      refine watched.charged capped idle uncut allowed coherent tap _ ?_ rfl
      simp [Stream.ReqCtx.fed]
  | charge nowUnix =>
    obtain ⟨nextTap, torn, stream⟩ := next
    simp only [call] at stepped ⊢
    cases stepped with
    | tripped charging outcome => exact watched.paid nowUnix charging coherent tap ⟨rfl, rfl, wasm, error⟩
    | paid charging outcome => exact watched.paid nowUnix charging coherent tap ⟨rfl, rfl, wasm, error⟩
  | finish abort =>
    obtain ⟨nextTap, torn, stream⟩ := next
    simp only [call] at stepped ⊢
    generalize (response.tap.map (BodyTap.finish json)).getD [] = events at stepped
    cases stepped with
    | finished waiting =>
      refine watched.unread coherent tap ?_ (fun _ => rfl) ⟨rfl, rfl, wasm, error⟩
      rcases waiting with idle | ended
      · simp [Charges, Stream.chargedTokens, idle]
      · simp [Charges, Stream.chargedTokens, ended]
  | settle nowUnix =>
    obtain ⟨nextTap, torn, stream⟩ := next
    simp only [call] at stepped ⊢
    cases stepped with
    | reconciled settling =>
      refine watched.unread coherent tap ?_ (fun _ => rfl) ⟨rfl, rfl, wasm, error⟩
      simp [Charges, Stream.chargedTokens, settling]
  | other op =>
    obtain ⟨nextTap, torn, stream⟩ := next
    simp only [call] at stepped ⊢
    cases stepped with
    | other called => exact watched.unread coherent tap Iff.rfl (fun _ => rfl) ⟨rfl, rfl, wasm, error⟩

/-- A provider stream over a run, from what its steps have charged and which they were. -/
private def WatchedRun (json : JsonText) (crc32 : List UInt8 → Nat) (bound : CapList) (wasmPerEvent : Bool)
    (kind : ProviderKind) (response : Response) (yielded : List (Nat × Action)) : Prop :=
  Watched bound wasmPerEvent (readingOf json crc32 wasmPerEvent kind (yielded.map (·.2))) (yielded.map (·.1)).sum
    response

private theorem watchedRun_step (capped : bound.caps ≠ []) (kind : ProviderKind) :
    ∀ response action next yielded, WatchedRun json crc32 bound wasmPerEvent kind response yielded → True →
      step json crc32 response action = some next →
        WatchedRun json crc32 bound wasmPerEvent kind next (yielded ++
          [(Stream.chargedTokens response.stream (response.call json crc32 action) next.stream, action)]) := by
  intro response action next yielded watched _ made
  unfold WatchedRun at watched ⊢
  rw [List.map_append, List.map_append, List.sum_append, List.map_singleton, List.map_singleton,
    List.sum_singleton, readingOf_snoc]
  exact watched_step capped watched made

/-- A provider stream is watched over every run. -/
private theorem stream_watched (capped : bound.caps ≠ []) {budgets : NodeBudgets} {kind : ProviderKind}
    {actions : List Action} {after : Response}
    (executed : Runs.exec (step json crc32) (start budgets bound wasmPerEvent kind .stream) actions = some after) :
    Watched bound wasmPerEvent (readingOf json crc32 wasmPerEvent kind actions)
      (Stream.chargedEstimate (start budgets bound wasmPerEvent kind .stream).stream
        ((start budgets bound wasmPerEvent kind .stream).calls json crc32 actions)) after := by
  have initial : WatchedRun json crc32 bound wasmPerEvent kind (start budgets bound wasmPerEvent kind .stream) [] := {
    coherent := Stream.start_coherent budgets bound wasmPerEvent
    wasm := rfl
    error := rfl
    loud := by
      rintro (paid | ⟨delta, pending, endOfStream, charging⟩)
      · cases paid
      · cases charging
    silent := fun _ => ⟨rfl, rfl, rfl, rfl, show tokensOfChars 0 = 0 by decide, fun _ => rfl⟩ }
  have final := Runs.exec_records (watchedRun_step capped kind) initial (Runs.along_of_forall fun _ _ _ => trivial)
    executed
  rw [List.nil_append, WatchedRun, Runs.trace_map, Runs.trace_map, Runs.trace_actions executed] at final
  rw [Stream.chargedEstimate, calls, Runs.trace_project (fun _ _ _ made => (step_eq_some.mp made).2.1) _ executed]
  exact final

end

/-- A settled response of a capped request is billed a count or a part of its estimate, or is stamped, exactly when
    its head selects the terminal-parse tap, or the stream that is read reports an output count, or the chunks of it
    that are charged carry a character of output. -/
theorem no_silent_zero_iff (json : JsonText) (crc32 : List UInt8 → Nat) (kind : ProviderKind) (status : Nat)
    (contentType contentEncoding : Option String) (plan : TapPlan) (bound : CapList) (budgets : NodeBudgets)
    (wasmPerEvent : Bool) (actions : List Action) (after : Response)
    (decided : decideTap status contentType contentEncoding kind = plan)
    (tapped : plan = .stream ∨ plan = .jsonTerminal) (capped : bound.caps ≠ [])
    (executed : Runs.exec (step json crc32) (start budgets bound wasmPerEvent kind plan) actions = some after)
    (settled : after.stream.Settled) :
    let response := start budgets bound wasmPerEvent kind plan
    Stream.NoSilentZero response.stream (response.calls json crc32 actions) after.stream ↔
      decideTap status contentType contentEncoding kind = .jsonTerminal ∨
        Counted json crc32 wasmPerEvent kind actions := by
  intro response
  obtain ⟨done, last⟩ := settled
  have streamed := calls_exec executed
  rw [decided]
  rcases tapped with rfl | rfl
  · simp only [response]
    have watched := stream_watched capped executed
    have phase := watched.coherent.settled_phase ⟨done, last⟩
    obtain ⟨never, each⟩ := Stream.counts_charged rfl streamed
    by_cases paid : 0 < Stream.chargedEstimate (start budgets bound wasmPerEvent kind .stream).stream
        ((start budgets bound wasmPerEvent kind .stream).calls json crc32 actions)
    · refine iff_of_true (Or.inr (Or.inl paid)) (Or.inr (Or.inr ?_))
      exact (estimateOf_pos _).mp (watched.loud (Or.inl paid))
    · have held := watched.silent (by
        rintro (loud | ⟨delta, pending, endOfStream, charging⟩)
        · exact paid loud
        · rw [phase] at charging
          cases charging)
      have reported : after.stream.ctx.meter.authoritativeOutput =
          reportedOutputOf (readingOf json crc32 wasmPerEvent kind actions).read := by
        rw [held.meter, (observe_new _).2]
      have counts : Stream.authoritativeCharges (start budgets bound wasmPerEvent kind .stream).stream
          ((start budgets bound wasmPerEvent kind .stream).calls json crc32 actions) ≠ [] ↔
            after.stream.ctx.meter.authoritativeOutput.isSome = true := by
        cases counted : after.stream.ctx.meter.authoritativeOutput with
        | none =>
          rw [counted] at phase
          simp [never (by rw [phase]; rfl)]
        | some count =>
          rw [counted] at phase
          rw [each count (by rw [phase]; rfl)]
          simpa [Stream.chargeEach, start, Stream.ReqCtx.start] using capped
      have nothing := (estimateOf_pos (readingOf json crc32 wasmPerEvent kind actions).charged).not.mp
        (by rw [held.nothing]; exact Nat.lt_irrefl 0)
      rw [Stream.NoSilentZero, counts, reported, reportedOutputOf_isSome, watched.error]
      simp only [paid, Option.isSome_none, Bool.false_eq_true, or_false, reduceCtorEq, false_or]
      exact ⟨Or.inl, fun counted => counted.resolve_right nothing⟩
  · simp only [response, true_or, iff_true]
    have held := Stream.document_settled capped document_holds streamed
    rcases held.settled done with ⟨total, pending, terminal, -⟩ | ⟨-, -, stamped⟩
    · rw [terminal] at last
      obtain rfl : pending = [] := last
      refine Or.inl ?_
      rw [(Stream.counts_charged rfl streamed).2 total (by rw [terminal]; rfl)]
      simpa [Stream.chargeEach, start, Stream.ReqCtx.start] using capped
    · exact Or.inr (Or.inr stamped)

/-- The data of a chunk that carries a word of output, and of an event of another dialect that reports usage under
    names of its own. -/
def wordData : String := "\x7b\"choices\":[\x7b\"delta\":\x7b\"content\":\"hello\"\x7d\x7d]\x7d"

def completedData : String :=
  "\x7b\"response\":\x7b\"usage\":\x7b\"output_tokens\":7\x7d\x7d\x7d"

/-- A JSON library on the two texts above. -/
def chunkJson : JsonText where
  fromStr text :=
    if text = wordData then
      .ok (.object [("choices", .array [.object [("delta", .object [("content", .string "hello")])]])])
    else if text = completedData then
      .ok (.object [("response", .object [("usage", .object [("output_tokens", .number (.posInt 7))])])])
    else .error "expected value at line 1 column 1"
  fromSlice _ := .error "expected value at line 1 column 1"
  toText _ := "null"
  toVec _ := []

/-- The data arrives as the one event of a stream, which then ends and is settled. -/
def oneEvent (data : String) (charges : Nat) : List Action :=
  [.chunk ("data: " ++ data ++ "\n\n").toUTF8.toList (fun _ => none) true] ++
    List.replicate charges (.charge 0) ++ [.finish none, .settle 0]

/-- A stream that carries a word of output is not billed nothing. -/
theorem word_is_billed :
    Stream.NoSilentZero (start teamAdmitted teamOnly false .openai .stream).stream
      ((start teamAdmitted teamOnly false .openai .stream).calls chunkJson (fun _ => 0) (oneEvent wordData 1))
      ((Runs.exec (step chunkJson fun _ => 0) (start teamAdmitted teamOnly false .openai .stream)
        (oneEvent wordData 1)).getD (start teamAdmitted teamOnly false .openai .stream)).stream := by
  have executed := Runs.exec_eq_getD (step chunkJson fun _ => 0) (start teamAdmitted teamOnly false .openai .stream)
    (oneEvent wordData 1) (by decide +kernel) (start teamAdmitted teamOnly false .openai .stream)
  exact (no_silent_zero_iff chunkJson (fun _ => 0) .openai 200 (some "text/event-stream") none .stream teamOnly
    teamAdmitted false (oneEvent wordData 1) _ (by decide +kernel) (Or.inl rfl) (by decide) executed
    (by decide +kernel)).mpr
      (Or.inr (by decide +kernel))

/-- An event that reports its usage under the names of another dialect reads as no output and no count: the stream is
    settled at nothing, and the request is not stamped. -/
theorem foreign_dialect_billed_nothing :
    ¬ ∀ (json : JsonText) (crc32 : List UInt8 → Nat) (kind : ProviderKind) (status : Nat)
        (contentType contentEncoding : Option String) (plan : TapPlan) (bound : CapList) (budgets : NodeBudgets)
        (wasmPerEvent : Bool) (actions : List Action) (after : Response),
      decideTap status contentType contentEncoding kind = plan → plan = .stream ∨ plan = .jsonTerminal →
        bound.caps ≠ [] →
          Runs.exec (step json crc32) (start budgets bound wasmPerEvent kind plan) actions = some after →
            after.stream.Settled →
              let response := start budgets bound wasmPerEvent kind plan
              Stream.NoSilentZero response.stream (response.calls json crc32 actions) after.stream := by
  intro claimed
  have executed := Runs.exec_eq_getD (step chunkJson fun _ => 0) (start teamAdmitted teamOnly false .openai .stream)
    (oneEvent completedData 0) (by decide +kernel) (start teamAdmitted teamOnly false .openai .stream)
  have billed := claimed chunkJson (fun _ => 0) .openai 200 (some "text/event-stream") none .stream teamOnly
    teamAdmitted false (oneEvent completedData 0) _ (by decide +kernel) (Or.inl rfl) (by decide) executed
    (by decide +kernel)
  revert billed
  decide +kernel

end Response

end SmallGateway
