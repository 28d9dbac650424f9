import SmallGateway.Dispatch
import SmallGateway.PushAnswers

/-!
The control plane and its nodes together (`session` and `push_and_await` in `gatewayctl/src/server.rs`, `connect_once`,
`wait_first_push` and `bind_push` in `gatewayd/src/client.rs`). A push goes onto the stream that the node's session
holds, the node reads its stream in order and answers on it, and the control plane reads the answers of every stream in
order, also of one that the node has left. Streams break and lose what is on its way; nodes dial again, or start anew.

Each side trusts what the other says of itself: the control plane takes an acknowledgement for the hash of what the
node serves, and the node takes a push for the render of its version. The main result is that a wave commits only after
each of its nodes has served, from the push of the wave to that node, the config that its render's text reads as
(`committed_wave_served`).
-/

namespace SmallGateway

/-- A stream of a node, with the pushes that the node has yet to read and the answers that the control plane has yet to
    read. -/
structure Channel where
  nodeId : String
  down : List RenderedSnapshot
  up : List PushAnswer

namespace Delivery

/-- A node's client, and the stream that it is on. -/
structure Node where
  client : PushAnswers.Client
  stream : Option Nat

/-- A push that reached a node, and what the node served then. -/
structure Delivered where
  nodeId : String
  snap : RenderedSnapshot
  served : Option (Snapshot WasmConfig)

end Delivery

/-- The control plane; all streams so far; the stream that a node's session was opened with; the nodes; and what has
    been delivered, which no step reads. -/
structure Delivery where
  control : Correlation
  streams : List Channel
  routes : Std.TreeMap String Nat
  nodes : Std.TreeMap String Delivery.Node
  delivered : List Delivery.Delivered

namespace Delivery

open PushAnswers (Client ClientHost)

/-- A node that has started. -/
def Node.fresh : Node := ⟨.start, none⟩

def node (s : Delivery) (nodeId : String) : Node := s.nodes[nodeId]?.getD .fresh

/-- Both sides hash a text in one way. -/
def renderTexts (host : ClientHost) (flatFor : List (String × List UInt8) → Option Labels → Except String String) :
    RenderTexts := ⟨flatFor, PushAnswers.contentHash host.digest⟩

/-- What an answer says to the control plane. -/
def response : PushAnswer → Correlation.Answer
  | .ack _ hash => .ack hash
  | .nack _ _ reason => .nack reason

/-- Puts a push on the stream of its node. -/
def send (s : Delivery) : Option RenderedSnapshot → List Channel
  | none => s.streams
  | some snap =>
    match s.routes[snap.nodeId]? with
    | none => s.streams
    | some k =>
      match s.streams[k]? with
      | none => s.streams
      | some stream => s.streams.set k { stream with down := stream.down ++ [snap] }

inductive Action
  /-- A step of the control plane that meets no stream, or pushes on one. -/
  | control (action : Correlation.Action)
  | dial (nodeId : String)
  /-- A node reads its stream. -/
  | deliver (nodeId : String) (files : Files) (held : Nat → Bool)
  /-- The control plane reads a stream. -/
  | answer (k : Nat)
  /-- A node's stream ends, and all but some of the answers on their way are lost. -/
  | lost (nodeId : String) (kept : Nat)
  | restart (nodeId : String)

/-- These are taken with the streams. -/
def ofStreams : Correlation.Action → Bool
  | .open_ _ | .answer _ _ _ => true
  | _ => false

def step (host : ClientHost) (installed : Option WasmRuntime) (texts : RenderTexts) (s : Delivery) :
    Action → Option Delivery
  | .control action =>
    if ofStreams action then none
    else (Correlation.step texts s.control action).map fun control =>
      { s with control, streams := s.send (s.control.dispatched action) }
  | .dial nodeId =>
    let node := s.node nodeId
    if node.stream.isSome then none
    else (Correlation.step texts s.control (.open_ nodeId)).map fun control =>
      { s with
        control, streams := s.streams ++ [⟨nodeId, [], []⟩], routes := s.routes.insert nodeId s.streams.length
        nodes := s.nodes.insert nodeId { node with stream := some s.streams.length } }
  | .deliver nodeId files held =>
    let node := s.node nodeId
    match node.stream with
    | none => none
    | some k =>
      match s.streams[k]? with
      | some ⟨owner, snap :: down, up⟩ =>
        (PushAnswers.step host installed node.client (.push snap files held)).map fun client =>
          { s with
            streams := s.streams.set k ⟨owner, down, up ++ client.answers.drop node.client.answers.length⟩
            nodes := s.nodes.insert nodeId { node with client }
            delivered := s.delivered ++ [⟨nodeId, snap, client.active⟩] }
      | _ => none
  | .answer k =>
    match s.streams[k]? with
    | some ⟨nodeId, down, answer :: up⟩ =>
      (Correlation.step texts s.control (.answer nodeId (PushAnswers.fleetVersion answer) (response answer))).map
        fun control => { s with control, streams := s.streams.set k ⟨nodeId, down, up⟩ }
    | _ => none
  | .lost nodeId kept =>
    let node := s.node nodeId
    match node.stream with
    | none => none
    | some k =>
      match s.streams[k]? with
      | none => none
      | some ⟨owner, _, up⟩ =>
        (PushAnswers.step host installed node.client .streamEnded).map fun client =>
          { s with
            streams := s.streams.set k ⟨owner, [], up.take kept⟩
            nodes := s.nodes.insert nodeId ⟨client, none⟩ }
  | .restart nodeId => some { s with nodes := s.nodes.insert nodeId .fresh }

/-- The control plane after its start on a source whose render is this text, and no node yet. -/
def init (texts : RenderTexts) (source : ResolvedRepo) (flat : String) (plan : WavePlan) : Delivery :=
  ⟨.init (texts.finalize source flat) source plan, [], ∅, ∅, []⟩

/-! ### What each side knows -/

/-- The bytes are those of a text, and the hash is that of the text. -/
def Honest (host : ClientHost) (config : List UInt8) (hash : String) : Prop :=
  ∃ text, Text.fromUtf8? config = some text ∧ hash = PushAnswers.contentHash host.digest text

/-- A render that tells the hash of its own bytes, as every render does that is made. -/
def HonestRender (host : ClientHost) (rendered : Rendered) : Prop :=
  Honest host rendered.configBytes rendered.renderHash

theorem finalize_honest (host : ClientHost)
    (flatFor : List (String × List UInt8) → Option Labels → Except String String) (resolved : ResolvedRepo)
    (flat : String) : HonestRender host ((renderTexts host flatFor).finalize resolved flat) :=
  ⟨flat, Text.fromUtf8?_bytes flat, rfl⟩

/-- The push has a version that was minted for its node and its hash, which is the hash of its bytes. -/
structure Issued (host : ClientHost) (control : Correlation) (nodeId : String) (snap : RenderedSnapshot) : Prop where
  minted : (nodeId, snap.fleetVersion, snap.renderHash) ∈ control.mints
  honest : Honest host snap.config snap.renderHash

/-- The snapshot is what the text of a push reads as. -/
def ReadFrom (host : ClientHost) (snap : RenderedSnapshot) (snapshot : Snapshot WasmConfig) : Prop :=
  ∃ text, Text.fromUtf8? snap.config = some text ∧ host.fromYaml text = .ok snapshot.config ∧
    snapshot.contentHash = PushAnswers.contentHash host.digest text

/-- What a node serves was read from a push that was delivered. -/
def Known (host : ClientHost) (delivered : List Delivered) (snapshot : Snapshot WasmConfig) : Prop :=
  ∃ arrived ∈ delivered, ReadFrom host arrived.snap snapshot

/-- A push of the version whose bytes have the hash was delivered to the node, which then served what has the hash. -/
def Acknowledged (host : ClientHost) (delivered : List Delivered) (nodeId : String) (version : Nat) (hash : String) :
    Prop :=
  ∃ arrived ∈ delivered, arrived.nodeId = nodeId ∧ arrived.snap.fleetVersion = version ∧
    Honest host arrived.snap.config hash ∧
    ∃ active, arrived.served = some active ∧ active.contentHash = hash ∧ Known host delivered active

theorem Known.mono {host : ClientHost} {delivered later : List Delivered} (more : delivered ⊆ later)
    {snapshot : Snapshot WasmConfig} (known : Known host delivered snapshot) : Known host later snapshot := by
  obtain ⟨arrived, inside, read⟩ := known
  exact ⟨arrived, more inside, read⟩

theorem Acknowledged.mono {host : ClientHost} {delivered later : List Delivered} (more : delivered ⊆ later)
    {nodeId : String} {version : Nat} {hash : String} (acknowledged : Acknowledged host delivered nodeId version hash) :
    Acknowledged host later nodeId version hash := by
  obtain ⟨arrived, inside, owner, same, honest, active, served, hashes, known⟩ := acknowledged
  exact ⟨arrived, more inside, owner, same, honest, active, served, hashes, known.mono more⟩

/-- A stream carries pushes that were issued to its node, and acknowledgements of what its node served. -/
structure Truthful (host : ClientHost) (control : Correlation) (delivered : List Delivered) (stream : Channel) :
    Prop where
  down : ∀ snap ∈ stream.down, Issued host control stream.nodeId snap
  up : ∀ version hash, .ack version hash ∈ stream.up → Acknowledged host delivered stream.nodeId version hash

/-- The node that each stream is of. -/
def owners (s : Delivery) : List String := s.streams.map (·.nodeId)

structure Sound (host : ClientHost) (s : Delivery) : Prop where
  control : s.control.Sound
  holds : s.control.Holds (HonestRender host)
  streams : ∀ stream ∈ s.streams, Truthful host s.control s.delivered stream
  routes : ∀ (nodeId : String) k, s.routes[nodeId]? = some k → s.owners[k]? = some nodeId
  joined : ∀ nodeId k, (s.node nodeId).stream = some k → s.owners[k]? = some nodeId
  serves : ∀ nodeId, ∀ snapshot ∈ (s.node nodeId).client.active, Known host s.delivered snapshot
  delivered : ∀ arrived ∈ s.delivered, Issued host s.control arrived.nodeId arrived.snap
  answers : ∀ nodeId version hash, (nodeId, version, .acked hash) ∈ s.control.answers →
    Acknowledged host s.delivered nodeId version hash

/-! ### What a push does to a node -/

section

variable {host : ClientHost} {installed : Option WasmRuntime} {client after : Client} {snap : RenderedSnapshot}

theorem answer_ack {push : PushHead} {outcome : ReloadOutcome} {boundHash hash : String} {version : Nat}
    (acks : push.answer outcome boundHash = .ack version hash) : version = push.fleetVersion ∧ hash = boundHash := by
  cases outcome <;> simp_all [PushHead.answer]

/-- A node serves what it served, or what the push reads as; and it acknowledges the version of the push, for the hash
    of its bytes, which is the hash of what it serves. -/
theorem pushed {files : Files} {held : Nat → Bool}
    (stepped : PushAnswers.step host installed client (.push snap files held) = some after) :
    (∀ snapshot ∈ after.active, snapshot ∈ client.active ∨ ReadFrom host snap snapshot) ∧
      ∀ version hash, .ack version hash ∈ after.answers.drop client.answers.length →
        version = snap.fleetVersion ∧ Honest host snap.config hash ∧
          ∃ active, after.active = some active ∧ active.contentHash = hash := by
  cases phase : client.phase with
  | refused => simp [PushAnswers.step, phase] at stepped
  | panicked node => simp [PushAnswers.step, phase] at stepped
  | awaiting =>
    simp only [PushAnswers.step, phase, Option.some.injEq] at stepped
    subst stepped
    rcases PushAnswers.waitFirstPush_cases host installed client snap with
      ⟨reason, refusal, -⟩ | ⟨text, reloader, decoded, boots, ⟨-, panics⟩ | ⟨-, binds⟩⟩
    · rw [refusal]
      refine ⟨fun snapshot inside => (by cases inside), fun version hash inside => ?_⟩
      simp [PushAnswers.nack] at inside
    · rw [panics]
      exact ⟨fun snapshot inside => (by cases inside), fun version hash inside => by simp at inside⟩
    · rw [binds]
      obtain ⟨parsed, -, hash, -⟩ := Reloader.bootstrap_spec boots
      refine ⟨fun snapshot inside => .inr ?_, fun version bound inside => ?_⟩
      · obtain rfl := Option.some.inj inside
        exact ⟨text, decoded, parsed, hash⟩
      · simp only [List.drop_left, List.mem_singleton, PushAnswer.ack.injEq] at inside
        exact ⟨inside.1, ⟨text, decoded, inside.2.trans hash⟩, reloader.shared, rfl, inside.2.symm⟩
  | serving node =>
    simp only [PushAnswers.step, phase, Option.some.injEq] at stepped
    subst stepped
    have active : client.active = some node.reloader.shared := by simp [Client.active, phase, PushAnswers.Phase.node]
    rcases PushAnswers.bindPush_cases host client node snap files held with
      ⟨-, refusal⟩ | ⟨text, next, outcome, decoded, reloads, outcomes⟩
    · rw [refusal]
      refine ⟨fun snapshot inside => .inl inside, fun version hash inside => ?_⟩
      simp [PushAnswers.nack] at inside
    · have serves : (next.reloader.shared ∈ client.active ∨ ReadFrom host snap next.reloader.shared) ∧
          ∀ version hash, (PushAnswers.head snap).answer outcome next.reloader.shared.contentHash = .ack version hash →
            hash = PushAnswers.contentHash host.digest text := by
        rcases PushAnswers.reload_cases host files held node text with
          ⟨result, same⟩ | ⟨counter, result⟩ | ⟨shared, counter, wasm, result, parsed, hash⟩
        · obtain ⟨rfl, rfl⟩ := Prod.mk.inj (reloads.symm.trans result)
          exact ⟨.inl active, fun version hash acks => (answer_ack acks).2.trans same.symm⟩
        · obtain ⟨rfl, rfl⟩ := Prod.mk.inj (reloads.symm.trans result)
          exact ⟨.inl active, fun version hash acks => by cases acks⟩
        · obtain ⟨rfl, rfl⟩ := Prod.mk.inj (reloads.symm.trans result)
          exact ⟨.inr ⟨text, decoded, parsed, hash⟩, fun version bound acks => (answer_ack acks).2.trans hash⟩
      rcases outcomes with ⟨-, panics⟩ | ⟨-, binds⟩
      · rw [panics]
        refine ⟨fun snapshot inside => ?_, fun version hash inside => by simp at inside⟩
        obtain rfl := Option.some.inj inside
        exact serves.1
      · rw [binds]
        refine ⟨fun snapshot inside => ?_, fun version hash inside => ?_⟩
        · obtain rfl := Option.some.inj inside
          exact serves.1
        · simp only [List.drop_left, List.mem_singleton] at inside
          obtain ⟨same, bound⟩ := answer_ack inside.symm
          exact ⟨same, ⟨text, decoded, serves.2 version hash inside.symm⟩, next.reloader.shared, rfl, bound.symm⟩

end

/-! ### Steps of the whole -/

section

variable {host : ClientHost} {installed : Option WasmRuntime} {s t : Delivery}
  {flatFor : List (String × List UInt8) → Option Labels → Except String String}

theorem Issued.mono {control later : Correlation} (mints : control.mints ⊆ later.mints) {nodeId : String}
    {snap : RenderedSnapshot} (issued : Issued host control nodeId snap) : Issued host later nodeId snap :=
  ⟨mints issued.minted, issued.honest⟩

theorem Truthful.mono {control later : Correlation} {delivered more : List Delivered}
    (mints : control.mints ⊆ later.mints) (known : delivered ⊆ more) {stream : Channel}
    (truthful : Truthful host control delivered stream) : Truthful host later more stream :=
  ⟨fun snap sent => (truthful.down snap sent).mono mints,
    fun version hash sent => (truthful.up version hash sent).mono known⟩

theorem node_of_insert {nodeId : String} {node : Node} (nodes : t.nodes = s.nodes.insert nodeId node) (other : String) :
    t.node other = if other = nodeId then node else s.node other := by
  unfold Delivery.node
  rw [nodes, Std.TreeMap.getElem?_insert]
  by_cases same : other = nodeId
  · simp [same]
  · have apart : ¬ compare nodeId other = .eq := fun eq => same (Std.LawfulEqCmp.eq_of_compare eq).symm
    rw [if_neg apart, if_neg same]

/-- What holds of every node, after one of them has changed. -/
theorem forall_node {nodeId : String} {node : Node} (nodes : t.nodes = s.nodes.insert nodeId node)
    (property : String → Node → Prop) (own : property nodeId node) (others : ∀ other, property other (s.node other)) :
    ∀ other, property other (t.node other) := by
  intro other
  rw [node_of_insert nodes]
  by_cases same : other = nodeId
  · rw [if_pos same, same]
    exact own
  · rw [if_neg same]
    exact others other

/-- A stream that is replaced by one of the same node. -/
theorem owners_set {k : Nat} {stream next : Channel} (there : s.streams[k]? = some stream)
    (owner : next.nodeId = stream.nodeId) : (s.streams.set k next).map (·.nodeId) = s.owners := by
  refine List.ext_getElem? fun i => ?_
  rw [owners, List.getElem?_map, List.getElem?_map, List.getElem?_set]
  by_cases same : k = i
  · subst same
    rw [if_pos rfl, if_pos (List.getElem?_eq_some_iff.mp there).1, there, Option.map_some, Option.map_some, owner]
  · rw [if_neg same]

theorem streams_set {control : Correlation} {delivered : List Delivered} {k : Nat} {next : Channel}
    (streams : ∀ stream ∈ s.streams, Truthful host control delivered stream)
    (truthful : Truthful host control delivered next) :
    ∀ stream ∈ s.streams.set k next, Truthful host control delivered stream := by
  intro stream inside
  rcases List.mem_or_eq_of_mem_set inside with before | rfl
  · exact streams stream before
  · exact truthful

/-- What is sent goes to the stream of its node. -/
theorem send_sound {control : Correlation} {delivered : List Delivered}
    (streams : ∀ stream ∈ s.streams, Truthful host control delivered stream)
    (routes : ∀ (nodeId : String) k, s.routes[nodeId]? = some k → s.owners[k]? = some nodeId)
    {sent : Option RenderedSnapshot} (issued : ∀ snap ∈ sent, Issued host control snap.nodeId snap) :
    (s.send sent).map (·.nodeId) = s.owners ∧ ∀ stream ∈ s.send sent, Truthful host control delivered stream := by
  cases sent with
  | none => exact ⟨rfl, streams⟩
  | some snap =>
    simp only [send]
    cases route : s.routes[snap.nodeId]? with
    | none => exact ⟨rfl, streams⟩
    | some k =>
      cases there : s.streams[k]? with
      | none =>
        simp only [there]
        exact ⟨rfl, streams⟩
      | some stream =>
        simp only [there]
        have owner : stream.nodeId = snap.nodeId := by
          have known := routes snap.nodeId k route
          rw [owners, List.getElem?_map, there, Option.map_some] at known
          exact Option.some.inj known
        refine ⟨owners_set there rfl, streams_set streams ⟨fun other inside => ?_, ?_⟩⟩
        · have carried := streams stream (List.mem_of_getElem? there)
          rcases List.mem_append.mp inside with before | new
          · exact carried.down other before
          · rw [List.mem_singleton.mp new]
            exact owner ▸ issued snap rfl
        · exact (streams stream (List.mem_of_getElem? there)).up

/-- A step of the control plane. -/
theorem control_sound (sound : s.Sound host) {action : Correlation.Action}
    (brings : ∀ rendered ∈ action.brings, HonestRender host rendered)
    (stepped : step host installed (renderTexts host flatFor) s (.control action) = some t) : t.Sound host := by
  simp only [step] at stepped
  by_cases ofStream : ofStreams action = true
  · rw [if_pos ofStream] at stepped
    cases stepped
  · rw [if_neg ofStream] at stepped
    obtain ⟨control, moved, rfl⟩ := Option.map_eq_some_iff.mp stepped
    obtain ⟨holds, mints, answers⟩ :=
      Correlation.holds_step (finalize_honest host flatFor) sound.holds brings moved
    have quiet : action.isAnswer = false := by cases action <;> simp_all [ofStreams, Correlation.Action.isAnswer]
    have issued : ∀ snap ∈ s.control.dispatched action, Issued host control snap.nodeId snap := by
      intro snap sends
      obtain ⟨minted, rendered, honest, config, hash⟩ := Correlation.dispatched_minted sound.control sound.holds sends
      refine ⟨mints minted, ?_⟩
      rw [config, hash]
      exact honest
    have streams : ∀ stream ∈ s.streams, Truthful host control s.delivered stream :=
      fun stream inside => (sound.streams stream inside).mono mints (List.Subset.refl _)
    obtain ⟨owners, carried⟩ := send_sound streams sound.routes issued
    refine ⟨Correlation.sound_step _ s.control action control sound.control moved, holds, carried, ?_, ?_, sound.serves,
      fun arrived inside => (sound.delivered arrived inside).mono mints, ?_⟩
    · intro nodeId k route
      exact (congrArg (·[k]?) owners).trans (sound.routes nodeId k route)
    · intro nodeId k joined
      exact (congrArg (·[k]?) owners).trans (sound.joined nodeId k joined)
    · rw [answers quiet]
      exact sound.answers

theorem dial_sound (sound : s.Sound host) {nodeId : String}
    (stepped : step host installed (renderTexts host flatFor) s (.dial nodeId) = some t) : t.Sound host := by
  simp only [step] at stepped
  by_cases busy : (s.node nodeId).stream.isSome = true
  · rw [if_pos busy] at stepped
    cases stepped
  · rw [if_neg busy] at stepped
    obtain ⟨control, moved, same⟩ := Option.map_eq_some_iff.mp stepped
    obtain ⟨holds, mints, answers⟩ :=
      Correlation.holds_step (finalize_honest host flatFor) sound.holds (fun _ none => by cases none) moved
    have owned : t.owners = s.owners ++ [nodeId] := by rw [← same, owners, List.map_append]; rfl
    have length : s.owners.length = s.streams.length := List.length_map _
    have kept : ∀ (k : Nat) (owner : String), s.owners[k]? = some owner → (s.owners ++ [nodeId])[k]? = some owner := by
      intro k owner known
      rw [List.getElem?_append_left (List.getElem?_eq_some_iff.mp known).1, known]
    have new : (s.owners ++ [nodeId])[s.streams.length]? = some nodeId := by
      rw [← length, List.getElem?_concat_length]
    have nodes : t.nodes = s.nodes.insert nodeId { s.node nodeId with stream := some s.streams.length } := by
      rw [← same]
    subst same
    refine ⟨Correlation.sound_step _ s.control _ control sound.control moved, holds, ?_, ?_, ?_, ?_,
      fun arrived inside => (sound.delivered arrived inside).mono mints, ?_⟩
    · intro stream inside
      rcases List.mem_append.mp inside with before | added
      · exact (sound.streams stream before).mono mints (List.Subset.refl _)
      · rw [List.mem_singleton.mp added]
        exact ⟨fun snap sent => (by cases sent), fun version hash sent => (by cases sent)⟩
    · intro other k route
      rw [owned]
      rw [Std.TreeMap.getElem?_insert] at route
      split at route
      · rename_i own
        obtain rfl := Std.LawfulEqCmp.compare_eq_iff_eq.mp own
        exact Option.some.inj route ▸ new
      · exact kept k other (sound.routes other k route)
    · rw [owned]
      refine forall_node nodes
        (fun other node => ∀ k, node.stream = some k → (s.owners ++ [nodeId])[k]? = some other) ?_ ?_
      · exact fun k joined => Option.some.inj joined ▸ new
      · exact fun other k joined => kept k other (sound.joined other k joined)
    · refine forall_node nodes (fun _ node => ∀ snapshot ∈ node.client.active, Known host s.delivered snapshot) ?_ ?_
      · exact sound.serves nodeId
      · exact sound.serves
    · rw [answers rfl]
      exact sound.answers

/-- A node reads a push. -/
theorem deliver_sound (sound : s.Sound host) {nodeId : String} {files : Files} {held : Nat → Bool}
    {texts : RenderTexts} (stepped : step host installed texts s (.deliver nodeId files held) = some t) :
    t.Sound host := by
  simp only [step] at stepped
  split at stepped
  · cases stepped
  · rename_i k on
    split at stepped
    · rename_i owner snap down up there
      obtain ⟨client, moved, same⟩ := Option.map_eq_some_iff.mp stepped
      obtain ⟨serves, acks⟩ := pushed moved
      have own : owner = nodeId := by
        have known := sound.joined nodeId k on
        rw [owners, List.getElem?_map, there, Option.map_some] at known
        exact Option.some.inj known
      have carried := sound.streams _ (List.mem_of_getElem? there)
      have issued : Issued host s.control nodeId snap := own ▸ carried.down snap List.mem_cons_self
      have more : s.delivered ⊆ s.delivered ++ [⟨nodeId, snap, client.active⟩] := List.subset_append_left _ _
      have now : (⟨nodeId, snap, client.active⟩ : Delivered) ∈ s.delivered ++ [⟨nodeId, snap, client.active⟩] :=
        List.mem_append_right _ List.mem_cons_self
      have known : ∀ snapshot ∈ client.active,
          Known host (s.delivered ++ [⟨nodeId, snap, client.active⟩]) snapshot := by
        intro snapshot active
        rcases serves snapshot active with before | read
        · exact (sound.serves nodeId snapshot before).mono more
        · exact ⟨_, now, read⟩
      have streams : ∀ stream ∈ s.streams.set k
          ⟨owner, down, up ++ client.answers.drop (s.node nodeId).client.answers.length⟩,
            Truthful host s.control (s.delivered ++ [⟨nodeId, snap, client.active⟩]) stream := by
        refine streams_set
          (fun stream inside => (sound.streams stream inside).mono (List.Subset.refl _) more) ⟨?_, ?_⟩
        · exact fun other sent => carried.down other (List.mem_cons_of_mem _ sent)
        · intro version hash sent
          rcases List.mem_append.mp sent with before | new
          · exact (carried.up version hash before).mono more
          · obtain ⟨same, honest, active, serving, hashes⟩ := acks version hash new
            exact ⟨_, now, own.symm, same.symm, honest, active, serving, hashes, known active serving⟩
      have owners : t.owners = s.owners := by
        rw [← same]
        exact owners_set there rfl
      have nodes : t.nodes = s.nodes.insert nodeId { s.node nodeId with client } := by rw [← same]
      subst same
      refine ⟨sound.control, sound.holds, streams, ?_, ?_, ?_, ?_, ?_⟩
      · intro other i route
        rw [owners]
        exact sound.routes other i route
      · rw [owners]
        refine forall_node nodes (fun other node => ∀ i, node.stream = some i → s.owners[i]? = some other) ?_ ?_
        · exact sound.joined nodeId
        · exact sound.joined
      · refine forall_node nodes (fun _ node => ∀ snapshot ∈ node.client.active, Known host _ snapshot) ?_ ?_
        · exact known
        · exact fun other snapshot active => (sound.serves other snapshot active).mono more
      · intro arrived inside
        rcases List.mem_append.mp inside with before | new
        · exact sound.delivered arrived before
        · rw [List.mem_singleton.mp new]
          exact issued
      · exact fun other version hash answered => (sound.answers other version hash answered).mono more
    · cases stepped

/-- The control plane reads an answer. -/
theorem answer_sound (sound : s.Sound host) {k : Nat}
    (stepped : step host installed (renderTexts host flatFor) s (.answer k) = some t) : t.Sound host := by
  simp only [step] at stepped
  split at stepped
  · rename_i nodeId down answer up there
    obtain ⟨control, moved, same⟩ := Option.map_eq_some_iff.mp stepped
    obtain ⟨holds, mints, -⟩ :=
      Correlation.holds_step (finalize_honest host flatFor) sound.holds (fun _ none => by cases none) moved
    obtain ⟨-, -, answers⟩ :=
      Correlation.deliver_beside s.control nodeId (PushAnswers.fleetVersion answer) (response answer)
    rw [show s.control.deliver nodeId (PushAnswers.fleetVersion answer) (response answer) = control from
      Option.some.inj moved] at answers
    have carried := sound.streams _ (List.mem_of_getElem? there)
    have owners : t.owners = s.owners := by
      rw [← same]
      exact owners_set there rfl
    subst same
    refine ⟨Correlation.sound_step _ s.control _ control sound.control moved, holds, ?_, ?_, ?_, sound.serves,
      fun arrived inside => (sound.delivered arrived inside).mono mints, ?_⟩
    · refine streams_set (fun stream inside => (sound.streams stream inside).mono mints (List.Subset.refl _)) ⟨?_, ?_⟩
      · exact fun snap sent => (carried.down snap sent).mono mints
      · exact fun version hash sent => carried.up version hash (List.mem_cons_of_mem _ sent)
    · intro other i route
      rw [owners]
      exact sound.routes other i route
    · intro other i joined
      rw [owners]
      exact sound.joined other i joined
    · intro other version hash heard
      rw [answers] at heard
      rcases List.mem_append.mp heard with before | new
      · exact sound.answers other version hash before
      · obtain ⟨rfl, rest⟩ := Prod.mk.inj (List.mem_singleton.mp new)
        obtain ⟨rfl, result⟩ := Prod.mk.inj rest
        cases answer with
        | ack version bound =>
          obtain rfl := AckResult.acked.inj result
          exact carried.up version hash List.mem_cons_self
        | nack version renderHash reason => cases result
  · cases stepped

/-- A node loses its stream. -/
theorem lost_sound (sound : s.Sound host) {nodeId : String} {kept : Nat} {texts : RenderTexts}
    (stepped : step host installed texts s (.lost nodeId kept) = some t) : t.Sound host := by
  simp only [step] at stepped
  split at stepped
  · cases stepped
  · rename_i k on
    split at stepped
    · cases stepped
    · rename_i owner down up there
      obtain ⟨client, moved, same⟩ := Option.map_eq_some_iff.mp stepped
      have serves := (PushAnswers.step_other rfl moved).2.2
      have carried := sound.streams _ (List.mem_of_getElem? there)
      have owners : t.owners = s.owners := by
        rw [← same]
        exact owners_set there rfl
      have nodes : t.nodes = s.nodes.insert nodeId ⟨client, none⟩ := by rw [← same]
      subst same
      refine ⟨sound.control, sound.holds, streams_set sound.streams ⟨?_, ?_⟩, ?_, ?_, ?_, sound.delivered,
        sound.answers⟩
      · exact fun snap sent => by cases sent
      · exact fun version hash sent => carried.up version hash (List.mem_of_mem_take sent)
      · intro other i route
        rw [owners]
        exact sound.routes other i route
      · rw [owners]
        refine forall_node nodes (fun other node => ∀ i, node.stream = some i → s.owners[i]? = some other) ?_ ?_
        · exact fun i joined => by cases joined
        · exact sound.joined
      · refine forall_node nodes (fun _ node => ∀ snapshot ∈ node.client.active, Known host s.delivered snapshot) ?_ ?_
        · exact fun snapshot active => sound.serves nodeId snapshot (serves snapshot active)
        · exact sound.serves

theorem restart_sound (sound : s.Sound host) {nodeId : String} {texts : RenderTexts}
    (stepped : step host installed texts s (.restart nodeId) = some t) : t.Sound host := by
  have nodes : t.nodes = s.nodes.insert nodeId .fresh := congrArg Delivery.nodes (Option.some.inj stepped).symm
  obtain rfl := Option.some.inj stepped
  refine ⟨sound.control, sound.holds, sound.streams, sound.routes, ?_, ?_, sound.delivered, sound.answers⟩
  · refine forall_node nodes (fun other node => ∀ i, node.stream = some i → s.owners[i]? = some other) ?_ ?_
    · exact fun i joined => by cases joined
    · exact sound.joined
  · refine forall_node nodes (fun _ node => ∀ snapshot ∈ node.client.active, Known host s.delivered snapshot) ?_ ?_
    · exact fun snapshot active => by cases active
    · exact sound.serves

end

/-! ### Runs of the whole -/

/-- The render that an action comes with. -/
def Action.brings : Action → Option SmallGateway.Rendered
  | .control action => action.brings
  | _ => none

section

variable {host : ClientHost} {installed : Option WasmRuntime} {s t : Delivery}
  {flatFor : List (String × List UInt8) → Option Labels → Except String String} {source : ResolvedRepo} {flat : String}
  {plan : WavePlan}

theorem sound_step (host : ClientHost) (installed : Option WasmRuntime)
    (flatFor : List (String × List UInt8) → Option Labels → Except String String) :
    Runs.PreservesWhen (step host installed (renderTexts host flatFor))
      (fun _ action => ∀ rendered ∈ action.brings, HonestRender host rendered) (Sound host) := by
  intro s action t sound brings stepped
  cases action with
  | control action => exact control_sound sound brings stepped
  | dial nodeId => exact dial_sound sound stepped
  | deliver nodeId files held => exact deliver_sound sound stepped
  | answer k => exact answer_sound sound stepped
  | lost nodeId kept => exact lost_sound sound stepped
  | restart nodeId => exact restart_sound sound stepped

theorem sound_init : (init (renderTexts host flatFor) source flat plan).Sound host where
  control := Correlation.sound_init _ _ _
  holds := by
    refine ⟨⟨finalize_honest host flatFor source flat, fun key rendered found => ?_⟩, ?_, ?_⟩
    · simp [init, Correlation.init, Fleet.fromSource] at found
    · simp [init, Correlation.init]
    · simp [init, Correlation.init]
  streams := by simp [init]
  routes := by simp [init]
  joined := by simp [init, Delivery.node, Node.fresh]
  serves := by simp [init, Delivery.node, Node.fresh, Client.active, Client.start, PushAnswers.Phase.node]
  delivered := by simp [init]
  answers := by simp [init, Correlation.init]

/-- The control plane moves by steps of its own. -/
theorem step_control {texts : RenderTexts} {action : Action} (stepped : step host installed texts s action = some t) :
    t.control = s.control ∨ ∃ moved, Correlation.step texts s.control moved = some t.control := by
  cases action with
  | control action =>
    obtain ⟨-, moves⟩ := Option.ite_none_left_eq_some.mp stepped
    obtain ⟨control, moved, rfl⟩ := Option.map_eq_some_iff.mp moves
    exact .inr ⟨action, moved⟩
  | dial nodeId =>
    obtain ⟨-, moves⟩ := Option.ite_none_left_eq_some.mp stepped
    obtain ⟨control, moved, rfl⟩ := Option.map_eq_some_iff.mp moves
    exact .inr ⟨_, moved⟩
  | deliver nodeId files held =>
    simp only [step] at stepped
    split at stepped
    · cases stepped
    · split at stepped
      · obtain ⟨client, -, rfl⟩ := Option.map_eq_some_iff.mp stepped
        exact .inl rfl
      · cases stepped
  | answer k =>
    simp only [step] at stepped
    split at stepped
    · obtain ⟨control, moved, rfl⟩ := Option.map_eq_some_iff.mp stepped
      exact .inr ⟨_, moved⟩
    · cases stepped
  | lost nodeId kept =>
    simp only [step] at stepped
    split at stepped
    · cases stepped
    · split at stepped
      · cases stepped
      · obtain ⟨client, -, rfl⟩ := Option.map_eq_some_iff.mp stepped
        exact .inl rfl
  | restart nodeId => exact .inl (Option.some.inj stepped ▸ rfl)

/-- An acknowledgement is of the hash that its version was minted for. -/
theorem Sound.acked (sound : s.Sound host) {nodeId : String} {version : Nat} {hash : String}
    (heard : (nodeId, version, .acked hash) ∈ s.control.answers) : (nodeId, version, hash) ∈ s.control.mints := by
  obtain ⟨arrived, inside, rfl, rfl, ⟨text, reads, rfl⟩, -⟩ := sound.answers nodeId version hash heard
  obtain ⟨minted, other, readsToo, same⟩ := sound.delivered arrived inside
  obtain rfl := Option.some.inj (reads.symm.trans readsToo)
  exact same ▸ minted

end

/-- In every run of the control plane and its nodes in which it is given renders that tell the hash of their own bytes:
    every acknowledgement that it has heard is of the hash that the version was minted for, and no wave halts because a
    node acknowledged another hash. -/
theorem no_wrong_hash (host : ClientHost) (installed : Option WasmRuntime)
    (flatFor : List (String × List UInt8) → Option Labels → Except String String) (source : ResolvedRepo)
    (flat : String) (plan : WavePlan) (actions : List Action) (s : Delivery)
    (executed : Runs.exec (step host installed (renderTexts host flatFor))
      (init (renderTexts host flatFor) source flat plan) actions = some s)
    (honest : ∀ action ∈ actions, ∀ rendered ∈ action.brings, HonestRender host rendered) :
    (∀ nodeId version hash, (nodeId, version, .acked hash) ∈ s.control.answers →
        (nodeId, version, hash) ∈ s.control.mints) ∧
      ∀ wave ∈ s.control.waves, wave.NoWrongHash := by
  have kept : Runs.PreservesWhen (step host installed (renderTexts host flatFor))
      (fun _ action => ∀ rendered ∈ action.brings, HonestRender host rendered)
      fun s => s.Sound host ∧ ∀ wave ∈ s.control.waves, wave.NoWrongHash := by
    rintro s action t ⟨sound, trusts⟩ brings stepped
    refine ⟨sound_step host installed flatFor s action t sound brings stepped, ?_⟩
    rcases step_control stepped with same | ⟨moved, moves⟩
    · rw [same]
      exact trusts
    · exact Correlation.noWrongHash_step sound.control (fun _ _ _ heard => sound.acked heard) trusts moves
  obtain ⟨sound, trusts⟩ := Runs.exec_preserves_along kept
    ⟨sound_init, fun wave under => by simp [init, Correlation.init] at under⟩
    (Runs.along_of_forall fun _ => honest) executed
  exact ⟨fun _ _ _ heard => sound.acked heard, trusts⟩

/-- The node was delivered the push of this version, whose text has the hash, and then served the config that the text
    reads as. -/
def ServedPush (host : ClientHost) (s : Delivery) (nodeId : String) (version : Nat) (hash : String) : Prop :=
  ∃ arrived ∈ s.delivered, arrived.nodeId = nodeId ∧ arrived.snap.fleetVersion = version ∧
    arrived.snap.renderHash = hash ∧ ∃ text active, Text.fromUtf8? arrived.snap.config = some text ∧
      PushAnswers.contentHash host.digest text = hash ∧ arrived.served = some active ∧ active.contentHash = hash ∧
      host.fromYaml text = .ok active.config

/-- In every run of the control plane and its nodes, with any pushes, heals, bootstraps and waves under way at once, any
    streams that break with any loss, and any nodes that return or start anew: each node of a wave that is committed was
    delivered the push of the wave, and then served the config that its text reads as. The renders that the control
    plane is given tell the hash of their own bytes, and the digest tells the delivered texts apart. -/
theorem committed_wave_served (host : ClientHost) (installed : Option WasmRuntime)
    (flatFor : List (String × List UInt8) → Option Labels → Except String String) (source : ResolvedRepo)
    (flat : String) (plan : WavePlan) (actions : List Action) (s : Delivery)
    (executed : Runs.exec (step host installed (renderTexts host flatFor))
      (init (renderTexts host flatFor) source flat plan) actions = some s)
    (honest : ∀ action ∈ actions, ∀ rendered ∈ action.brings, HonestRender host rendered)
    (distinct : Set.InjOn (PushAnswers.contentHash host.digest)
      {text | ∃ arrived ∈ s.delivered, Text.fromUtf8? arrived.snap.config = some text})
    (wave : Correlation.Wave) (under : wave ∈ s.control.waves) (hash : String) (nodeCount : Nat)
    (committed : wave.outcome = some (.committed hash nodeCount)) (nodeId : String) (target : nodeId ∈ wave.nodeIds) :
    ∃ pushed ∈ wave.pushed, pushed.nodeId = nodeId ∧ ServedPush host s nodeId pushed.version pushed.hash := by
  have sound := Runs.exec_preserves_along (sound_step host installed flatFor) sound_init
    (Runs.along_of_forall fun _ => honest) executed
  obtain ⟨pushed, sent, rfl, -, answered, only⟩ := sound.control.acknowledgedBy under committed nodeId target
  refine ⟨pushed, sent, rfl, ?_⟩
  obtain ⟨arrived, inside, owner, version, ⟨text, reads, hashes⟩, active, serving, bound, known⟩ :=
    sound.answers _ _ _ answered
  obtain ⟨other, insideToo, origin, readsToo, parsed, hashesToo⟩ := known
  obtain ⟨minted, -⟩ := sound.delivered arrived inside
  rw [owner, version] at minted
  have same : text = origin := distinct ⟨arrived, inside, reads⟩ ⟨other, insideToo, readsToo⟩
    (hashes.symm.trans (bound.symm.trans hashesToo))
  exact ⟨arrived, inside, owner, version, (only _).mp minted, text, active, reads, hashes.symm, serving, bound,
    same ▸ parsed⟩

/-- Every repo renders to the text `a`. -/
def letterTexts : RenderTexts := renderTexts PushAnswers.plainHost fun _ _ => .ok "a"

/-- Node `n1` reads its stream. -/
def readN1 : Action := .deliver "n1" (fun _ => .error "") (fun _ => false)

/-- A node loses its first stream with its first answer on it. It dials again and is pushed a wave and a heal, answers
    both, starts anew, and the wave is concluded. -/
def waveAfterLoss : List Action :=
  [.dial "n1", .control (.single "n1" (letterTexts.finalize ⟨[], "c1"⟩ "a")), .control (.singleMove 0 (.push true)),
    readN1, .lost "n1" 0, .dial "n1", .control (.wave .single ((∅ : Std.TreeMap String Labels).insert "n1" ∅) 0),
    .control (.move 0 (.render (some ∅))), .control (.move 0 .mint), .control (.move 0 (.push true)),
    .control (.single "n1" (letterTexts.finalize ⟨[], "c1"⟩ "a")), .control (.singleMove 1 (.push true)), readN1,
    readN1, .answer 1, .answer 1, .restart "n1", .control (.move 0 .take), .control (.move 0 .conclude)]

def afterLoss : Delivery :=
  (Runs.exec (step PushAnswers.plainHost none letterTexts) (init letterTexts ⟨[], "c1"⟩ "a" .single) waveAfterLoss).getD
    (init letterTexts ⟨[], "c1"⟩ "a" .single)

def hashOfA : String := PushAnswers.contentHash PushAnswers.sha256 "a"

theorem waveAfterLoss_executed :
    Runs.exec (step PushAnswers.plainHost none letterTexts) (init letterTexts ⟨[], "c1"⟩ "a" .single) waveAfterLoss =
      some afterLoss := Runs.exec_eq_getD _ _ _ (by decide +kernel) _

theorem waveAfterLoss_honest : ∀ action ∈ waveAfterLoss, ∀ rendered ∈ action.brings,
    HonestRender PushAnswers.plainHost rendered := by
  intro action inside rendered brings
  have all : waveAfterLoss.filterMap Action.brings =
      [letterTexts.finalize ⟨[], "c1"⟩ "a", letterTexts.finalize ⟨[], "c1"⟩ "a"] := rfl
  have among : rendered ∈ waveAfterLoss.filterMap Action.brings := List.mem_filterMap.mpr ⟨action, inside, brings⟩
  rw [all, List.mem_pair, or_self] at among
  rw [among]
  exact finalize_honest PushAnswers.plainHost _ _ _

theorem waveAfterLoss_heard :
    (∀ nodeId version hash, (nodeId, version, .acked hash) ∈ afterLoss.control.answers →
        (nodeId, version, hash) ∈ afterLoss.control.mints) ∧
      ∀ wave ∈ afterLoss.control.waves, wave.NoWrongHash :=
  no_wrong_hash PushAnswers.plainHost none _ ⟨[], "c1"⟩ "a" .single waveAfterLoss afterLoss waveAfterLoss_executed
    waveAfterLoss_honest

theorem waveAfterLoss_served :
    ∃ wave ∈ afterLoss.control.waves, wave.outcome = some (.committed hashOfA 1) ∧ wave.nodeIds = ["n1"] ∧
      ∃ pushed ∈ wave.pushed, pushed.nodeId = "n1" ∧
        ServedPush PushAnswers.plainHost afterLoss "n1" pushed.version pushed.hash := by
  have waves : afterLoss.control.waves.map (fun wave => (wave.outcome, wave.nodeIds)) =
      [(some (.committed hashOfA 1), ["n1"])] := by decide +kernel
  have texts : ∀ arrived ∈ afterLoss.delivered, Text.fromUtf8? arrived.snap.config = some "a" := by decide +kernel
  have distinct : Set.InjOn (PushAnswers.contentHash PushAnswers.plainHost.digest)
      {text | ∃ arrived ∈ afterLoss.delivered, Text.fromUtf8? arrived.snap.config = some text} := by
    rintro first ⟨one, inside, reads⟩ second ⟨two, insideToo, readsToo⟩ -
    rw [texts one inside] at reads
    rw [texts two insideToo] at readsToo
    exact (Option.some.inj reads).symm.trans (Option.some.inj readsToo)
  obtain ⟨wave, only, same⟩ := List.map_eq_singleton_iff.mp waves
  obtain ⟨committed, nodeIds⟩ := Prod.mk.inj same
  have under : wave ∈ afterLoss.control.waves := by
    rw [only]
    exact List.mem_singleton_self wave
  exact ⟨wave, under, committed, nodeIds, committed_wave_served PushAnswers.plainHost none _ ⟨[], "c1"⟩ "a" .single
    waveAfterLoss afterLoss waveAfterLoss_executed waveAfterLoss_honest distinct wave under hashOfA 1 committed "n1"
    (by rw [nodeIds]; exact List.mem_singleton_self _)⟩

end Delivery

end SmallGateway
