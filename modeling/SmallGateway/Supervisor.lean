import SmallGateway.NodeBudgets
import SmallGateway.PushAnswers

/-!
The supervisor of a node's stream (`gatewayd/src/client.rs`: `connect_and_bootstrap`, `supervise`, `connect_once`,
`apply_share_grant`). The first connection has to bind a push, or the node never serves. After that the node serves
whatever becomes of its streams: it dials again after each one, waits longer after each dial that fails, and holds its
budgets partitioned from the end of a stream until it is joined again.

The process that starts the node waits for one signal, which is sent in every run at most once (`supervised`). The
pushes of all streams together are answered as those of a single stream (`supervised_answers_truthful_iff`), and
without a push nothing changes what is served (`outage_serves`).
-/

namespace SmallGateway

/-- What a node presents when it joins. -/
structure Hello where
  nodeId : String
  joinToken : String
  labels : Labels
  currentFleetVersion : Nat

namespace Supervisor

/-- Where the supervisor is: a dial is under way, a stream is up, it waits for the next dial, or it has ended. -/
inductive Link
  | dialing
  | streaming
  | sleeping
  | over
  deriving DecidableEq

/-- What a node dials with. -/
structure Dial where
  endpoint : String
  nodeId : String
  joinToken : String

end Supervisor

/-- The client of the streams and the budgets of the node; the backoff; what was presented at each join, the waits so
    far, and what was sent to the process that started the node. Times are in milliseconds. -/
structure Supervisor where
  client : PushAnswers.Client
  link : Supervisor.Link
  budgets : NodeBudgets
  backoff : Nat
  hellos : List Hello
  waits : List Nat
  ready : List (Except String (Snapshot WasmConfig))

namespace Supervisor

open PushAnswers (Client ClientHost Arrival)

def reconnectBackoffMin : Nat := 500

def reconnectBackoffMax : Nat := 30000

/-- What happens to a node: a dial fails, is turned away or joins; a message reaches it; its stream ends or breaks; its
    wait is over; or its requests and its reporter use the budgets. -/
inductive Event
  | dialFailed (reason : String)
  | joinRejected (reason : String)
  | joined
  | push (snap : RenderedSnapshot) (files : Files) (held : Nat → Bool)
  | shareGrant (shares : List (CapId × Nat × Nat))
  | liveness
  | streamEnded
  | streamFailed (reason : String)
  | slept
  | call (op : NodeBudgets.Op)

def start (nodeLabel : String) : Supervisor := ⟨.start, .dialing, .new nodeLabel, reconnectBackoffMin, [], [], []⟩

def hello (dial : Dial) (s : Supervisor) : Supervisor :=
  { s with hellos := s.hellos ++ [⟨dial.nodeId, dial.joinToken, ∅, s.client.lastFleetVersion⟩] }

/-- The head of the reconnect loop. -/
def sleep (s : Supervisor) : Supervisor :=
  { s with link := .sleeping, budgets := s.budgets.setPartitioned true, waits := s.waits ++ [s.backoff] }

/-- The first connection has failed. -/
def giveUp (s : Supervisor) (reason : String) : Supervisor :=
  { s with client := { s.client with phase := .refused }, link := .over, ready := s.ready ++ [.error reason] }

/-- A connection that is not made: fatal for the first one, and else tried again. -/
def connectFailed (s : Supervisor) (reason : String) : Supervisor :=
  match s.client.phase with
  | .awaiting => s.giveUp reason
  | _ => { s with backoff := min (s.backoff * 2) reconnectBackoffMax }.sleep

/-- A stream that is over. -/
def streamOver (s : Supervisor) (reason : String) : Supervisor :=
  match s.client.phase with
  | .awaiting => s.giveUp reason
  | _ => { s with backoff := reconnectBackoffMin }.sleep

/-- A stream that is up: only a node that has a config has budgets to set. -/
def join (s : Supervisor) : Supervisor :=
  match s.client.phase with
  | .awaiting => { s with link := .streaming }
  | _ => { s with link := .streaming, budgets := s.budgets.setPartitioned false }

/-- Why the first push was refused. -/
def firstPushError (host : ClientHost) (snap : RenderedSnapshot) : String :=
  match Text.fromUtf8? snap.config with
  | none => PushAnswers.notUtf8 snap.config
  | some text =>
    match Reloader.bootstrap host.texts text with
    | .error reason => "first snapshot rejected: " ++ reason
    | .ok _ => ""

/-- A push. The first one that binds releases the process that started the node; a panic ends the supervisor. -/
def bind (host : ClientHost) (installed : Option WasmRuntime) (s : Supervisor) (snap : RenderedSnapshot)
    (files : Files) (held : Nat → Bool) : Option Supervisor :=
  (PushAnswers.step host installed s.client (.push snap files held)).map fun client =>
    match s.client.phase, client.phase with
    | .awaiting, .serving node =>
      { s with
        client, budgets := s.budgets.setPartitioned false, ready := s.ready ++ [.ok node.reloader.shared] }
    | .awaiting, .refused => { s with client, link := .over, ready := s.ready ++ [.error (firstPushError host snap)] }
    | _, .panicked _ => { s with client, link := .over }
    | _, _ => { s with client }

/-- Before the first push there is nothing to grant a share of. -/
def applyShareGrant (s : Supervisor) (shares : List (CapId × Nat × Nat)) : Supervisor :=
  match s.client.phase with
  | .awaiting => s
  | _ => if shares.isEmpty then s else { s with budgets := s.budgets.applyShares shares }

def step (host : ClientHost) (installed : Option WasmRuntime) (dial : Dial) (s : Supervisor) :
    Event → Option Supervisor
  | .dialFailed reason =>
    if s.link = .dialing then some (s.connectFailed ("dial " ++ dial.endpoint ++ ": " ++ reason)) else none
  | .joinRejected reason =>
    if s.link = .dialing then some ((s.hello dial).connectFailed ("join rejected by control plane: " ++ reason))
    else none
  | .joined => if s.link = .dialing then some (s.hello dial).join else none
  | .push snap files held => if s.link = .streaming then s.bind host installed snap files held else none
  | .shareGrant shares => if s.link = .streaming then some (s.applyShareGrant shares) else none
  | .liveness => if s.link = .streaming then some s else none
  | .streamEnded => if s.link = .streaming then some (s.streamOver "stream closed before first snapshot") else none
  | .streamFailed reason =>
    if s.link = .streaming then some (s.streamOver ("stream error before first snapshot: " ++ reason)) else none
  | .slept => if s.link = .sleeping then some { s with link := .dialing } else none
  -- Only the supervisor enters and leaves partition mode.
  | .call (.setPartitioned _) => none
  | .call op => (s.budgets.step op).map fun budgets => { s with budgets }

/-- What the process that started the node gets: nothing yet, the snapshot that it serves from, or why it cannot. -/
def connectAndBootstrap (s : Supervisor) : Option (Except String (Snapshot WasmConfig)) :=
  match s.ready.head? with
  | some result => some result
  | none => if s.link = .over then some (.error "control-plane client exited before first snapshot") else none

/-! ### The phases of a node -/

/-- The states that a node goes through: what its client does, where its supervisor is, whether its budgets are
    partitioned, and what it has signalled. -/
inductive Coherent : PushAnswers.Phase → Link → Bool → List (Except String (Snapshot WasmConfig)) → Prop
  | firstDial : Coherent .awaiting .dialing false []
  | firstStream : Coherent .awaiting .streaming false []
  | refused (reason : String) : Coherent .refused .over false [.error reason]
  | stillborn : Coherent (.panicked none) .over false []
  | streaming (node : PushAnswers.Serving) (first : Snapshot WasmConfig) :
    Coherent (.serving node) .streaming false [.ok first]
  | sleeping (node : PushAnswers.Serving) (first : Snapshot WasmConfig) :
    Coherent (.serving node) .sleeping true [.ok first]
  | dialing (node : PushAnswers.Serving) (first : Snapshot WasmConfig) :
    Coherent (.serving node) .dialing true [.ok first]
  | panicked (node : PushAnswers.Serving) (first : Snapshot WasmConfig) :
    Coherent (.panicked (some node)) .over false [.ok first]

def Sound (s : Supervisor) : Prop := Coherent s.client.phase s.link s.budgets.partitioned s.ready

section

variable {host : ClientHost} {installed : Option WasmRuntime} {dial : Dial} {s t : Supervisor}

theorem connectFailed_sound (sound : s.Sound) (dialing : s.link = .dialing) (reason : String) :
    (s.connectFailed reason).Sound := by
  obtain ⟨⟨phase, version, answers⟩, link, ⟨nodeId, inner, partitioned⟩, backoff, hellos, waits, ready⟩ := s
  obtain rfl : link = .dialing := dialing
  cases (sound : Coherent phase .dialing partitioned ready) with
  | firstDial => exact .refused reason
  | dialing node first => exact .sleeping node first

theorem streamOver_sound (sound : s.Sound) (streaming : s.link = .streaming) (reason : String) :
    (s.streamOver reason).Sound := by
  obtain ⟨⟨phase, version, answers⟩, link, ⟨nodeId, inner, partitioned⟩, backoff, hellos, waits, ready⟩ := s
  obtain rfl : link = .streaming := streaming
  cases (sound : Coherent phase .streaming partitioned ready) with
  | firstStream => exact .refused reason
  | streaming node first => exact .sleeping node first

theorem join_sound (sound : s.Sound) (dialing : s.link = .dialing) : s.join.Sound := by
  obtain ⟨⟨phase, version, answers⟩, link, ⟨nodeId, inner, partitioned⟩, backoff, hellos, waits, ready⟩ := s
  obtain rfl : link = .dialing := dialing
  cases (sound : Coherent phase .dialing partitioned ready) with
  | firstDial => exact .firstStream
  | dialing node first => exact .streaming node first

theorem applyShareGrant_sound (sound : s.Sound) (shares : List (CapId × Nat × Nat)) :
    (s.applyShareGrant shares).Sound := by
  unfold applyShareGrant
  split
  · exact sound
  · by_cases empty : shares.isEmpty = true
    · rw [if_pos empty]
      exact sound
    · rw [if_neg empty]
      unfold Sound
      rw [NodeBudgets.applyShares_partitioned]
      exact sound

/-- What a push can do to a node on its first stream, or on a later one. -/
theorem bind_cases {snap : RenderedSnapshot} {files : Files} {held : Nat → Bool}
    (bound : s.bind host installed snap files held = some t) :
    ∃ client, PushAnswers.step host installed s.client (.push snap files held) = some client ∧
      ((s.client.phase = .awaiting ∧
          ((client.phase = .refused ∧
              t = { s with client, link := .over, ready := s.ready ++ [.error (firstPushError host snap)] }) ∨
            (client.phase = .panicked none ∧ t = { s with client, link := .over }) ∨
            ∃ node, client.phase = .serving node ∧
              t = { s with
                client, budgets := s.budgets.setPartitioned false, ready := s.ready ++ [.ok node.reloader.shared] })) ∨
        ∃ before, s.client.phase = .serving before ∧ ∃ node,
          (client.phase = .panicked (some node) ∧ t = { s with client, link := .over }) ∨
          (client.phase = .serving node ∧ t = { s with client })) := by
  obtain ⟨client, stepped, rfl⟩ := Option.map_eq_some_iff.mp bound
  refine ⟨client, stepped, ?_⟩
  cases phase : s.client.phase with
  | refused => simp [PushAnswers.step, phase] at stepped
  | panicked node => simp [PushAnswers.step, phase] at stepped
  | awaiting =>
    simp only [PushAnswers.step, phase, Option.some.injEq] at stepped
    refine .inl ⟨rfl, ?_⟩
    rcases PushAnswers.waitFirstPush_cases host installed s.client snap with
      ⟨reason, refusal, -⟩ | ⟨text, reloader, -, -, ⟨-, panics⟩ | ⟨-, binds⟩⟩
    · rw [refusal] at stepped
      subst stepped
      exact .inl ⟨rfl, rfl⟩
    · rw [panics] at stepped
      subst stepped
      exact .inr (.inl ⟨rfl, rfl⟩)
    · rw [binds] at stepped
      subst stepped
      exact .inr (.inr ⟨_, rfl, rfl⟩)
  | serving before =>
    simp only [PushAnswers.step, phase, Option.some.injEq] at stepped
    refine .inr ⟨before, rfl, ?_⟩
    rcases PushAnswers.bindPush_cases host s.client before snap files held with
      ⟨-, refusal⟩ | ⟨text, next, outcome, -, -, ⟨-, panics⟩ | ⟨-, binds⟩⟩
    · rw [refusal] at stepped
      subst stepped
      exact ⟨before, .inr ⟨phase, by simp [phase]⟩⟩
    · rw [panics] at stepped
      subst stepped
      exact ⟨next, .inl ⟨rfl, rfl⟩⟩
    · rw [binds] at stepped
      subst stepped
      exact ⟨next, .inr ⟨rfl, rfl⟩⟩

theorem bind_sound (sound : s.Sound) (streaming : s.link = .streaming) {snap : RenderedSnapshot} {files : Files}
    {held : Nat → Bool} (bound : s.bind host installed snap files held = some t) : t.Sound := by
  obtain ⟨client, -, outcomes⟩ := bind_cases bound
  obtain ⟨⟨phase, version, answers⟩, link, ⟨nodeId, inner, partitioned⟩, backoff, hellos, waits, ready⟩ := s
  obtain rfl : link = .streaming := streaming
  obtain ⟨after, next, sent⟩ := client
  rcases outcomes with ⟨awaiting, outcomes⟩ | ⟨before, serving, node, outcomes⟩
  · obtain rfl : phase = .awaiting := awaiting
    cases (sound : Coherent .awaiting .streaming partitioned ready)
    rcases outcomes with ⟨refused, rfl⟩ | ⟨panicked, rfl⟩ | ⟨node, serves, rfl⟩
    · obtain rfl : after = .refused := refused
      exact .refused _
    · obtain rfl : after = .panicked none := panicked
      exact .stillborn
    · obtain rfl : after = .serving node := serves
      exact .streaming node _
  · obtain rfl : phase = .serving before := serving
    cases (sound : Coherent (.serving before) .streaming partitioned ready)
    rcases outcomes with ⟨panicked, rfl⟩ | ⟨serves, rfl⟩
    · obtain rfl : after = .panicked (some node) := panicked
      exact .panicked node _
    · obtain rfl : after = .serving node := serves
      exact .streaming node _

/-- No call of the node's own enters or leaves partition mode. -/
theorem call_cases {op : NodeBudgets.Op} (stepped : step host installed dial s (.call op) = some t) :
    ∃ budgets, t = { s with budgets } ∧ budgets.partitioned = s.budgets.partitioned := by
  cases op with
  | setPartitioned on => cases stepped
  | admitRequest id terms nowUnix =>
    obtain rfl := Option.some.inj stepped
    exact ⟨_, rfl, rfl⟩
  | meter id terms tokens nowUnix =>
    obtain rfl := Option.some.inj stepped
    exact ⟨_, rfl, NodeBudgets.meter_partitioned _ _ _ _ _⟩
  | settle id estimated authoritative nowUnix =>
    obtain rfl := Option.some.inj stepped
    exact ⟨_, rfl, NodeBudgets.settle_partitioned _ _ _ _ _⟩
  | applyShares grants =>
    obtain rfl := Option.some.inj stepped
    exact ⟨_, rfl, NodeBudgets.applyShares_partitioned _ _⟩
  | spendReport nowUnix =>
    obtain rfl := Option.some.inj stepped
    exact ⟨_, rfl, rfl⟩
  | escalating nowUnix =>
    obtain rfl := Option.some.inj stepped
    exact ⟨_, rfl, rfl⟩

theorem sound_step (host : ClientHost) (installed : Option WasmRuntime) (dial : Dial) :
    Runs.Preserves (step host installed dial) Sound := by
  intro s event t sound stepped
  cases event with
  | call op =>
    obtain ⟨budgets, rfl, same⟩ := call_cases stepped
    unfold Sound
    rw [same]
    exact sound
  | dialFailed reason =>
    obtain ⟨dialing, same⟩ := Option.ite_none_right_eq_some.mp stepped
    exact Option.some.inj same ▸ connectFailed_sound sound dialing _
  | joinRejected reason =>
    obtain ⟨dialing, same⟩ := Option.ite_none_right_eq_some.mp stepped
    exact Option.some.inj same ▸ @connectFailed_sound (s.hello dial) sound dialing _
  | joined =>
    obtain ⟨dialing, same⟩ := Option.ite_none_right_eq_some.mp stepped
    exact Option.some.inj same ▸ @join_sound (s.hello dial) sound dialing
  | push snap files held =>
    obtain ⟨streaming, bound⟩ := Option.ite_none_right_eq_some.mp stepped
    exact bind_sound sound streaming bound
  | shareGrant shares =>
    obtain ⟨-, same⟩ := Option.ite_none_right_eq_some.mp stepped
    exact Option.some.inj same ▸ applyShareGrant_sound sound shares
  | liveness =>
    obtain ⟨-, same⟩ := Option.ite_none_right_eq_some.mp stepped
    exact Option.some.inj same ▸ sound
  | streamEnded =>
    obtain ⟨streaming, same⟩ := Option.ite_none_right_eq_some.mp stepped
    exact Option.some.inj same ▸ streamOver_sound sound streaming _
  | streamFailed reason =>
    obtain ⟨streaming, same⟩ := Option.ite_none_right_eq_some.mp stepped
    exact Option.some.inj same ▸ streamOver_sound sound streaming _
  | slept =>
    obtain ⟨asleep, same⟩ := Option.ite_none_right_eq_some.mp stepped
    obtain ⟨⟨phase, version, answers⟩, link, ⟨nodeId, inner, partitioned⟩, backoff, hellos, waits, ready⟩ := s
    obtain rfl : link = .sleeping := asleep
    cases (sound : Coherent phase .sleeping partitioned ready) with
    | sleeping node first => exact Option.some.inj same ▸ .dialing node first

end

/-! ### The waits and what is presented -/

/-- The wait after so many dials have failed in a row. -/
def delay (failures : Nat) : Nat := min (reconnectBackoffMin * 2 ^ failures) reconnectBackoffMax

theorem delay_succ (failures : Nat) : min (delay failures * 2) reconnectBackoffMax = delay (failures + 1) := by
  simp only [delay, reconnectBackoffMin, reconnectBackoffMax, pow_succ]
  omega

/-- The dials that have failed since the last stream ended. -/
def failures (events : List Event) : Nat :=
  events.foldl (fun count event =>
    match event with
    | .dialFailed _ | .joinRejected _ => count + 1
    | .streamEnded | .streamFailed _ => 0
    | _ => count) 0

/-- The backoff, and the last wait while it lasts, are those of the failures so far. -/
structure Paced (s : Supervisor) (events : List Event) : Prop where
  backoff : s.link ≠ .over → s.backoff = delay (failures events)
  waits : s.link = .sleeping → s.waits.getLast? = some (delay (failures events))

/-- What a join presents. -/
def presents (dial : Dial) (s : Supervisor) : Event → List Hello
  | .joinRejected _ | .joined => [⟨dial.nodeId, dial.joinToken, ∅, PushAnswers.lastAcked s.client.answers⟩]
  | _ => []

section

variable {host : ClientHost} {installed : Option WasmRuntime} {dial : Dial} {s t : Supervisor} {events : List Event}

/-- A step that leaves the link, the backoff and the waits alone, or ends the supervisor. -/
theorem Paced.of_same {event : Event} (paced : s.Paced events) (backoff : t.backoff = s.backoff)
    (waits : t.waits = s.waits) (link : t.link = s.link ∨ t.link ≠ .sleeping ∧ s.link ≠ .over)
    (count : failures (events ++ [event]) = failures events) : t.Paced (events ++ [event]) := by
  constructor
  · intro running
    rw [backoff, count]
    refine paced.backoff fun ended => ?_
    rcases link with same | ⟨-, earlier⟩
    · exact running (same.trans ended)
    · exact earlier ended
  · intro asleep
    rw [waits, count]
    rcases link with same | ⟨awake, -⟩
    · exact paced.waits (same ▸ asleep)
    · exact absurd asleep awake

theorem paced_over {s : Supervisor} (ended : s.link = .over) (events : List Event) : s.Paced events where
  backoff running := absurd ended running
  waits asleep := by
    rw [ended] at asleep
    cases asleep

theorem connectFailed_paced (paced : s.Paced events) (dialing : s.link = .dialing) (reason : String) {event : Event}
    (count : failures (events ++ [event]) = failures events + 1) :
    (s.connectFailed reason).Paced (events ++ [event]) := by
  have next : min (s.backoff * 2) reconnectBackoffMax = delay (failures (events ++ [event])) := by
    rw [paced.backoff (by simp [dialing]), delay_succ, count]
  unfold connectFailed
  split
  · exact paced_over rfl _
  · exact ⟨fun _ => next, fun _ => by simp [sleep, next]⟩

theorem streamOver_paced (reason : String) {event : Event} (count : failures (events ++ [event]) = 0) :
    (s.streamOver reason).Paced (events ++ [event]) := by
  have reset : reconnectBackoffMin = delay (failures (events ++ [event])) := by
    rw [count]
    rfl
  unfold streamOver
  split
  · exact paced_over rfl _
  · exact ⟨fun _ => reset, fun _ => by simp [sleep, reset]⟩

theorem paced_step {event : Event} (paced : s.Paced events) (stepped : step host installed dial s event = some t) :
    t.Paced (events ++ [event]) := by
  have counts : ∀ event, failures (events ++ [event]) =
      match event with
      | .dialFailed _ | .joinRejected _ => failures events + 1
      | .streamEnded | .streamFailed _ => 0
      | _ => failures events := fun event => List.foldl_concat _ _ _ _
  cases event with
  | call op =>
    obtain ⟨budgets, rfl, -⟩ := call_cases stepped
    exact paced.of_same rfl rfl (.inl rfl) (counts _)
  | dialFailed reason =>
    obtain ⟨dialing, same⟩ := Option.ite_none_right_eq_some.mp stepped
    exact Option.some.inj same ▸ connectFailed_paced paced dialing _ (counts _)
  | joinRejected reason =>
    obtain ⟨dialing, same⟩ := Option.ite_none_right_eq_some.mp stepped
    have presented : (s.hello dial).Paced events := ⟨paced.backoff, paced.waits⟩
    exact Option.some.inj same ▸ connectFailed_paced presented dialing _ (counts _)
  | joined =>
    obtain ⟨dialing, same⟩ := Option.ite_none_right_eq_some.mp stepped
    obtain rfl := Option.some.inj same
    unfold join
    split
    · exact paced.of_same rfl rfl (.inr ⟨by simp, by simp [dialing]⟩) (counts _)
    · exact paced.of_same rfl rfl (.inr ⟨by simp, by simp [dialing]⟩) (counts _)
  | push snap files held =>
    obtain ⟨streaming, bound⟩ := Option.ite_none_right_eq_some.mp stepped
    obtain ⟨client, -, outcomes⟩ := bind_cases bound
    rcases outcomes with ⟨-, ⟨-, rfl⟩ | ⟨-, rfl⟩ | ⟨node, -, rfl⟩⟩ | ⟨-, -, node, ⟨-, rfl⟩ | ⟨-, rfl⟩⟩
    · exact paced_over rfl _
    · exact paced_over rfl _
    · exact paced.of_same rfl rfl (.inl rfl) (counts _)
    · exact paced_over rfl _
    · exact paced.of_same rfl rfl (.inl rfl) (counts _)
  | shareGrant shares =>
    obtain ⟨-, same⟩ := Option.ite_none_right_eq_some.mp stepped
    obtain rfl := Option.some.inj same
    unfold applyShareGrant
    split
    · exact paced.of_same rfl rfl (.inl rfl) (counts _)
    · by_cases empty : shares.isEmpty = true
      · rw [if_pos empty]
        exact paced.of_same rfl rfl (.inl rfl) (counts _)
      · rw [if_neg empty]
        exact paced.of_same rfl rfl (.inl rfl) (counts _)
  | liveness =>
    obtain ⟨-, same⟩ := Option.ite_none_right_eq_some.mp stepped
    exact Option.some.inj same ▸ paced.of_same rfl rfl (.inl rfl) (counts _)
  | streamEnded =>
    obtain ⟨-, same⟩ := Option.ite_none_right_eq_some.mp stepped
    exact Option.some.inj same ▸ streamOver_paced _ (counts _)
  | streamFailed reason =>
    obtain ⟨-, same⟩ := Option.ite_none_right_eq_some.mp stepped
    exact Option.some.inj same ▸ streamOver_paced _ (counts _)
  | slept =>
    obtain ⟨asleep, same⟩ := Option.ite_none_right_eq_some.mp stepped
    exact Option.some.inj same ▸ paced.of_same rfl rfl (.inr ⟨by simp, by simp [asleep]⟩) (counts _)

end

/-! ### The streams of a node as one -/

/-- What the client sees of an event. A connection that is not made ends a client that awaits its first push, as the end
    of a stream does. -/
def Event.arrival : Event → Option Arrival
  | .dialFailed _ | .joinRejected _ | .streamEnded | .streamFailed _ => some .streamEnded
  | .push snap files held => some (.push snap files held)
  | .shareGrant _ | .liveness => some .other
  | .joined | .slept | .call _ => none

section

variable {host : ClientHost} {installed : Option WasmRuntime} {dial : Dial} {nodeLabel : String} {s t : Supervisor}
  {events : List Event}

theorem connectFailed_client (sound : s.Sound) (dialing : s.link = .dialing) (reason : String) :
    PushAnswers.step host installed s.client .streamEnded = some (s.connectFailed reason).client := by
  obtain ⟨⟨phase, version, answers⟩, link, ⟨nodeId, inner, partitioned⟩, backoff, hellos, waits, ready⟩ := s
  obtain rfl : link = .dialing := dialing
  cases (sound : Coherent phase .dialing partitioned ready) <;> rfl

theorem streamOver_client (sound : s.Sound) (streaming : s.link = .streaming) (reason : String) :
    PushAnswers.step host installed s.client .streamEnded = some (s.streamOver reason).client := by
  obtain ⟨⟨phase, version, answers⟩, link, ⟨nodeId, inner, partitioned⟩, backoff, hellos, waits, ready⟩ := s
  obtain rfl : link = .streaming := streaming
  cases (sound : Coherent phase .streaming partitioned ready) <;> rfl

theorem other_client (sound : s.Sound) (streaming : s.link = .streaming) :
    PushAnswers.step host installed s.client .other = some s.client := by
  obtain ⟨⟨phase, version, answers⟩, link, ⟨nodeId, inner, partitioned⟩, backoff, hellos, waits, ready⟩ := s
  obtain rfl : link = .streaming := streaming
  cases (sound : Coherent phase .streaming partitioned ready) <;> rfl

theorem join_client (s : Supervisor) : s.join.client = s.client := by
  unfold join
  split <;> rfl

theorem applyShareGrant_client (s : Supervisor) (shares : List (CapId × Nat × Nat)) :
    (s.applyShareGrant shares).client = s.client := by
  unfold applyShareGrant
  split
  · rfl
  · by_cases empty : shares.isEmpty = true
    · rw [if_pos empty]
    · rw [if_neg empty]

/-- The client takes what an event brings it, and nothing else changes it. -/
theorem step_client (sound : s.Sound) {event : Event} (stepped : step host installed dial s event = some t) :
    Runs.exec (PushAnswers.step host installed) s.client event.arrival.toList = some t.client := by
  have one : ∀ {arrival : Arrival}, PushAnswers.step host installed s.client arrival = some t.client →
      Runs.exec (PushAnswers.step host installed) s.client [arrival] = some t.client :=
    fun moved => Runs.exec_cons.mpr ⟨t.client, moved, rfl⟩
  cases event with
  | call op =>
    obtain ⟨budgets, rfl, -⟩ := call_cases stepped
    rfl
  | dialFailed reason =>
    obtain ⟨dialing, same⟩ := Option.ite_none_right_eq_some.mp stepped
    exact one (Option.some.inj same ▸ connectFailed_client sound dialing _)
  | joinRejected reason =>
    obtain ⟨dialing, same⟩ := Option.ite_none_right_eq_some.mp stepped
    exact one (Option.some.inj same ▸ @connectFailed_client host installed (s.hello dial) sound dialing _)
  | joined =>
    obtain ⟨-, same⟩ := Option.ite_none_right_eq_some.mp stepped
    rw [← Option.some.inj same, join_client]
    rfl
  | push snap files held =>
    obtain ⟨-, bound⟩ := Option.ite_none_right_eq_some.mp stepped
    obtain ⟨client, moved, outcomes⟩ := bind_cases bound
    refine one ?_
    rcases outcomes with ⟨-, ⟨-, rfl⟩ | ⟨-, rfl⟩ | ⟨node, -, rfl⟩⟩ | ⟨-, -, node, ⟨-, rfl⟩ | ⟨-, rfl⟩⟩ <;> exact moved
  | shareGrant shares =>
    obtain ⟨streaming, same⟩ := Option.ite_none_right_eq_some.mp stepped
    refine one ?_
    rw [← Option.some.inj same, applyShareGrant_client]
    exact other_client sound streaming
  | liveness =>
    obtain ⟨streaming, same⟩ := Option.ite_none_right_eq_some.mp stepped
    exact one (Option.some.inj same ▸ other_client sound streaming)
  | streamEnded =>
    obtain ⟨streaming, same⟩ := Option.ite_none_right_eq_some.mp stepped
    exact one (Option.some.inj same ▸ streamOver_client sound streaming _)
  | streamFailed reason =>
    obtain ⟨streaming, same⟩ := Option.ite_none_right_eq_some.mp stepped
    exact one (Option.some.inj same ▸ streamOver_client sound streaming _)
  | slept =>
    obtain ⟨-, same⟩ := Option.ite_none_right_eq_some.mp stepped
    exact Option.some.inj same ▸ rfl

theorem start_sound (nodeLabel : String) : (start nodeLabel).Sound := .firstDial

/-- All streams of a node together are a single stream to its client. -/
theorem exec_client (executed : Runs.exec (step host installed dial) (start nodeLabel) events = some s) :
    Runs.exec (PushAnswers.step host installed) .start (events.filterMap Event.arrival) = some s.client :=
  Runs.exec_erase (sound_step host installed dial) (fun _ _ _ sound stepped => step_client sound stepped)
    (start_sound nodeLabel) executed

theorem exec_remembers (executed : Runs.exec (step host installed dial) (start nodeLabel) events = some s) :
    s.client.lastFleetVersion = PushAnswers.lastAcked s.client.answers :=
  Runs.exec_preserves PushAnswers.remembers rfl (exec_client executed)

end

/-! ### Runs of a node -/

/-- What holds of a node after these events: it signals at most once, when and as its first push came out; its budgets
    are partitioned exactly while it serves between two streams; it dials on as long as it serves; it waits as long as
    the dials that failed since its last stream ask for; and each join presents the last version acknowledged. -/
structure Supervised (host : ClientHost) (installed : Option WasmRuntime) (dial : Dial) (nodeLabel : String)
    (events : List Event) (s : Supervisor) : Prop where
  signalled : s.ready.length ≤ 1
  blocked : s.connectAndBootstrap = none ↔ s.client.phase = .awaiting
  released : (∃ snapshot, s.connectAndBootstrap = some (.ok snapshot)) ↔ s.client.active.isSome = true
  partitioned : s.budgets.partitioned = true ↔
    s.client.active.isSome = true ∧ (s.link = .sleeping ∨ s.link = .dialing)
  dials : ∀ node, s.client.phase = .serving node → s.link ≠ .over
  waits : s.link = .sleeping → s.waits.getLast? = some (delay (failures events))
  hellos : s.hellos =
    (Runs.trace (step host installed dial) (fun s event _ => presents dial s event) (start nodeLabel) events).flatten

section

variable {host : ClientHost} {installed : Option WasmRuntime} {dial : Dial} {nodeLabel : String} {s t : Supervisor}
  {events : List Event}

theorem connectFailed_hellos (s : Supervisor) (reason : String) : (s.connectFailed reason).hellos = s.hellos := by
  unfold connectFailed
  split <;> rfl

/-- A step presents what the client remembers. -/
theorem step_hellos {event : Event} (remembers : s.client.lastFleetVersion = PushAnswers.lastAcked s.client.answers)
    (stepped : step host installed dial s event = some t) : t.hellos = s.hellos ++ presents dial s event := by
  have joins : (s.hello dial).hellos = s.hellos ++
      [⟨dial.nodeId, dial.joinToken, ∅, PushAnswers.lastAcked s.client.answers⟩] := by rw [hello, remembers]
  cases event with
  | call op =>
    obtain ⟨budgets, rfl, -⟩ := call_cases stepped
    exact (List.append_nil _).symm
  | dialFailed reason =>
    obtain ⟨-, same⟩ := Option.ite_none_right_eq_some.mp stepped
    rw [← Option.some.inj same, connectFailed_hellos]
    exact (List.append_nil _).symm
  | joinRejected reason =>
    obtain ⟨-, same⟩ := Option.ite_none_right_eq_some.mp stepped
    rw [← Option.some.inj same, connectFailed_hellos, joins]
    rfl
  | joined =>
    obtain ⟨-, same⟩ := Option.ite_none_right_eq_some.mp stepped
    have kept : (s.hello dial).join.hellos = (s.hello dial).hellos := by
      unfold join
      split <;> rfl
    rw [← Option.some.inj same, kept, joins]
    rfl
  | push snap files held =>
    obtain ⟨-, bound⟩ := Option.ite_none_right_eq_some.mp stepped
    obtain ⟨client, -, outcomes⟩ := bind_cases bound
    rcases outcomes with ⟨-, ⟨-, rfl⟩ | ⟨-, rfl⟩ | ⟨node, -, rfl⟩⟩ | ⟨-, -, node, ⟨-, rfl⟩ | ⟨-, rfl⟩⟩ <;>
      exact (List.append_nil _).symm
  | shareGrant shares =>
    obtain ⟨-, same⟩ := Option.ite_none_right_eq_some.mp stepped
    have kept : (s.applyShareGrant shares).hellos = s.hellos := by
      unfold applyShareGrant
      split
      · rfl
      · split <;> rfl
    rw [← Option.some.inj same, kept]
    exact (List.append_nil _).symm
  | liveness =>
    obtain ⟨-, same⟩ := Option.ite_none_right_eq_some.mp stepped
    exact Option.some.inj same ▸ (List.append_nil _).symm
  | streamEnded =>
    obtain ⟨-, same⟩ := Option.ite_none_right_eq_some.mp stepped
    rw [← Option.some.inj same]
    unfold streamOver
    split <;> exact (List.append_nil _).symm
  | streamFailed reason =>
    obtain ⟨-, same⟩ := Option.ite_none_right_eq_some.mp stepped
    rw [← Option.some.inj same]
    unfold streamOver
    split <;> exact (List.append_nil _).symm
  | slept =>
    obtain ⟨-, same⟩ := Option.ite_none_right_eq_some.mp stepped
    exact Option.some.inj same ▸ (List.append_nil _).symm

/-- A client that serves is left alone by whatever is no push. -/
theorem serving_other {client after : Client} {arrival : Option Arrival} (serving : client.active.isSome = true)
    (unpushed : arrival.bind Arrival.snapshot = none)
    (stepped : Runs.exec (PushAnswers.step host installed) client arrival.toList = some after) : after = client := by
  cases arrival with
  | none => exact (Option.some.inj stepped).symm
  | some arrival =>
    obtain ⟨next, moved, same⟩ := Runs.exec_cons.mp stepped
    obtain rfl := Option.some.inj same
    cases phase : client.phase with
    | awaiting => simp [Client.active, phase, PushAnswers.Phase.node] at serving
    | refused => simp [PushAnswers.step, phase] at moved
    | panicked node => simp [PushAnswers.step, phase] at moved
    | serving node =>
      cases arrival with
      | push snap files held => cases unpushed
      | other =>
        simp only [PushAnswers.step, phase, Option.some.injEq] at moved
        exact moved.symm
      | streamEnded =>
        simp only [PushAnswers.step, phase, Option.some.injEq] at moved
        exact moved.symm

theorem exec_paced (executed : Runs.exec (step host installed dial) (start nodeLabel) events = some s) :
    s.Paced events := by
  have kept : ∀ s event t events, Paced s events → True → step host installed dial s event = some t →
      Paced t (events ++ [event]) := fun s event t events paced _ stepped => paced_step paced stepped
  have initial : (start nodeLabel).Paced [] := ⟨fun _ => rfl, fun asleep => by cases asleep⟩
  have account :
      s.Paced ([] ++ Runs.trace (step host installed dial) (fun _ event _ => event) (start nodeLabel) events) :=
    Runs.exec_records kept initial (Runs.along_of_forall fun _ _ _ => trivial) executed
  rwa [List.nil_append, Runs.trace_actions executed] at account

theorem exec_hellos (executed : Runs.exec (step host installed dial) (start nodeLabel) events = some s) :
    s.hellos = (Runs.trace (step host installed dial) (fun s event _ => presents dial s event) (start nodeLabel)
      events).flatten := by
  let account := fun (s : Supervisor) (presented : List (List Hello)) =>
    s.Sound ∧ s.client.lastFleetVersion = PushAnswers.lastAcked s.client.answers ∧ s.hellos = presented.flatten
  have kept : ∀ s event t presented, account s presented → True → step host installed dial s event = some t →
      account t (presented ++ [presents dial s event]) := by
    rintro s event t presented ⟨sound, remembers, same⟩ - stepped
    refine ⟨sound_step host installed dial s event t sound stepped,
      Runs.exec_preserves PushAnswers.remembers remembers (step_client sound stepped), ?_⟩
    rw [step_hellos remembers stepped, same, List.flatten_concat]
  have initial : account (start nodeLabel) [] := ⟨start_sound nodeLabel, rfl, rfl⟩
  have whole := Runs.exec_records kept initial (Runs.along_of_forall fun _ _ _ => trivial) executed
  rw [whole.2.2, List.nil_append]

end

/-- Without a push the client of a node that serves stays as it is, whatever happens to its streams: what it serves,
    what it has answered and the version that it remembers. -/
theorem outage_serves (host : ClientHost) (installed : Option WasmRuntime) (dial : Dial) (nodeLabel : String)
    (events outage : List Event) (s t : Supervisor)
    (executed : Runs.exec (step host installed dial) (start nodeLabel) events = some s)
    (serving : s.client.active.isSome = true)
    (unpushed : ∀ event ∈ outage, event.arrival.bind Arrival.snapshot = none)
    (lasted : Runs.exec (step host installed dial) s outage = some t) : t.client = s.client := by
  have sound : s.Sound := Runs.exec_preserves (sound_step host installed dial) (start_sound nodeLabel) executed
  have kept : Runs.PreservesWhen (step host installed dial)
      (fun _ event => event.arrival.bind Arrival.snapshot = none) fun u => u.Sound ∧ u.client = s.client := by
    rintro u event v ⟨sound, same⟩ unpushed stepped
    refine ⟨sound_step host installed dial u event v sound stepped, ?_⟩
    exact (serving_other (same ▸ serving) unpushed (step_client sound stepped)).trans same
  exact (Runs.exec_preserves_along kept ⟨sound, rfl⟩ (Runs.along_of_forall fun _ => unpushed) lasted).2

/-- For every run of a node over any number of streams, in which the digest tells the pushed texts apart: each push on
    any of them is answered once and truthfully, the answers are in the order of the pushes, and the remembered version
    is that of the last acknowledged one, if and only if no advertised hash of a push that is bound or compared with
    what is bound is cut inside a character. -/
theorem supervised_answers_truthful_iff (host : ClientHost) (installed : Option WasmRuntime) (dial : Dial)
    (nodeLabel : String) (events : List Event) (s : Supervisor)
    (executed : Runs.exec (step host installed dial) (start nodeLabel) events = some s)
    (distinct : Set.InjOn (PushAnswers.contentHash host.digest)
      {text | text ∈ PushAnswers.pushedTexts (events.filterMap Event.arrival)}) :
    (Runs.Along (step host installed dial)
          (fun s event => ∀ arrival ∈ event.arrival, PushAnswers.Truthful host installed s.client arrival)
          (start nodeLabel) events ∧
        s.client.answers.map PushAnswers.fleetVersion =
          ((events.filterMap Event.arrival).filterMap Arrival.snapshot).map (·.fleetVersion) ∧
        s.client.lastFleetVersion = PushAnswers.lastAcked s.client.answers) ↔
      Runs.Along (step host installed dial)
        (fun s event => ∀ arrival ∈ event.arrival, PushAnswers.Sliceable host s.client arrival)
        (start nodeLabel) events := by
  let texts : Set String := {text | text ∈ PushAnswers.pushedTexts (events.filterMap Event.arrival)}
  let node := PushAnswers.step host installed
  have simulated := fun s event t (sound : Sound s) (stepped : step host installed dial s event = some t) =>
    step_client sound stepped
  have client := exec_client executed
  have truths : Runs.Along (step host installed dial)
      (fun s event => ∀ arrival ∈ event.arrival, PushAnswers.Truthful host installed s.client arrival)
      (start nodeLabel) events ↔
        Runs.Along node (PushAnswers.Truthful host installed) .start (events.filterMap Event.arrival) :=
    Runs.along_erase (sound_step host installed dial) simulated (start_sound nodeLabel) executed
  have cuts : Runs.Along (step host installed dial)
      (fun s event => ∀ arrival ∈ event.arrival, PushAnswers.Sliceable host s.client arrival)
      (start nodeLabel) events ↔
        Runs.Along node (PushAnswers.Sliceable host) .start (events.filterMap Event.arrival) :=
    Runs.along_erase (sound_step host installed dial) simulated (start_sound nodeLabel) executed
  have brings : Runs.Along node (fun _ arrival => PushAnswers.Brings texts arrival) .start
      (events.filterMap Event.arrival) := Runs.along_of_forall fun _ _ inside => PushAnswers.pushedTexts_brings inside
  have idle : PushAnswers.Served host texts .start := ⟨fun snapshot inside => by cases inside⟩
  have same := Runs.along_congr_along
    (fun client arrival after served brings stepped => (PushAnswers.step_spec distinct served brings stepped).1)
    (fun client arrival after served brings stepped => (PushAnswers.step_spec distinct served brings stepped).2) idle
    brings client
  rw [truths, cuts, ← same, and_iff_left_iff_imp]
  intro truthful
  exact ⟨PushAnswers.answered_in_order truthful client, exec_remembers executed⟩

def pushed (version : Nat) (config : List UInt8) : Event :=
  .push ⟨"n1", "commit", "stale", version, config⟩ (fun _ => .error "") (fun _ => false)

/-- A stream with a push, a grant and a push that is refused. -/
def firstStream : List Event :=
  [.joined, pushed 1 [97], .shareGrant [(⟨"team", "ml"⟩, 100, 40)], pushed 2 [98, 97]]

/-- It breaks; two dials fail, between which a request is settled; and a stream is joined. -/
def twoFailedDials : List Event :=
  [.streamFailed "reset", .slept, .dialFailed "refused", .call (.settle ⟨"team", "ml"⟩ 0 7 60), .slept,
    .dialFailed "refused", .slept, .joined]

/-- A push on that stream, which then ends; and a dial that is turned away. -/
def threeStreams : List Event :=
  firstStream ++ twoFailedDials ++
    [pushed 3 [98], .streamEnded, .slept, .joinRejected "replayed token"]

def dialN1 : Dial := ⟨"cp:9000", "n1", "tok"⟩

def after (events : List Event) : Supervisor :=
  (Runs.exec (step PushAnswers.plainHost none dialN1) (start "n1") events).getD (start "n1")

theorem threeStreams_executed :
    (Runs.exec (step PushAnswers.plainHost none dialN1) (start "n1") threeStreams).isSome = true ∧
      (after threeStreams).waits = [500, 1000, 2000, 500, 1000] ∧
      (after threeStreams).hellos.map (·.currentFleetVersion) = [0, 1, 3] ∧
      (after threeStreams).client.answers.map PushAnswers.fleetVersion = [1, 2, 3] := by decide +kernel

theorem twoFailedDials_serves :
    let later := (Runs.exec (step PushAnswers.plainHost none dialN1) (after firstStream) twoFailedDials).getD
      (start "n1")
    later.link = .streaming ∧ later.client = (after firstStream).client := by
  have runs : (Runs.exec (step PushAnswers.plainHost none dialN1) (start "n1") firstStream).isSome = true ∧
      (after firstStream).client.active.isSome = true ∧
      (Runs.exec (step PushAnswers.plainHost none dialN1) (after firstStream) twoFailedDials).isSome = true ∧
      ((Runs.exec (step PushAnswers.plainHost none dialN1) (after firstStream) twoFailedDials).getD
        (start "n1")).link = .streaming := by decide +kernel
  obtain ⟨first, serving, lasted, streaming⟩ := runs
  exact ⟨streaming, outage_serves PushAnswers.plainHost none dialN1 "n1" firstStream twoFailedDials _ _
    (Runs.exec_eq_getD _ _ _ first (start "n1")) serving (by decide) (Runs.exec_eq_getD _ _ _ lasted (start "n1"))⟩

theorem threeStreams_truthful :
    (after threeStreams).client.answers.map PushAnswers.fleetVersion = [1, 2, 3] ∧
      Runs.Along (step PushAnswers.plainHost none dialN1)
        (fun s event => ∀ arrival ∈ event.arrival, PushAnswers.Truthful PushAnswers.plainHost none s.client arrival)
        (start "n1") threeStreams := by
  have distinct : ∀ x ∈ PushAnswers.pushedTexts (threeStreams.filterMap Event.arrival),
      ∀ y ∈ PushAnswers.pushedTexts (threeStreams.filterMap Event.arrival),
        PushAnswers.contentHash PushAnswers.sha256 x = PushAnswers.contentHash PushAnswers.sha256 y → x = y := by
    decide +kernel
  obtain ⟨executed, -, -, answers⟩ := threeStreams_executed
  have whole := supervised_answers_truthful_iff PushAnswers.plainHost none dialN1 "n1" threeStreams _
    (Runs.exec_eq_getD _ _ _ executed (start "n1"))
    fun x first y second same => distinct x first y second same
  exact ⟨answers, (whole.mpr (by decide +kernel)).1⟩

end Supervisor

end SmallGateway
