import SmallGateway.Lib.Runs
import SmallGateway.Rendering
import SmallGateway.WasmBinding

/-!
What a node answers to the pushes of the control plane (`gatewayd/src/client.rs`: `connect_once`, `wait_first_push`,
`bind_push`, `hash_mismatch_note`). The first push makes the reloader, and a first push that does not bind ends the
node; every later one goes through the reload. A push is answered after the node has compared the advertised hash with
the hash of what it bound, and the note of a mismatch shows the first twelve bytes of both. The advertised hash is any
text, so the cut can fall inside a character: then the client panics, with the push bound and not answered. The answers
are true exactly in the runs in which no advertised hash is cut like that (`answers_truthful_iff`).
-/

namespace SmallGateway

namespace PushAnswers

/-- The hash of a config text, from the digest of its bytes. -/
def contentHash (digest : List UInt8 → List UInt8) (text : String) : String := Text.hex (digest text.toUTF8.toList)

/-- What the node rests on: reading a config, the digest, and loading modules. -/
structure ClientHost where
  fromYaml : String → Except String WasmConfig
  digest : List UInt8 → List UInt8
  loader : ModuleLoader

def ClientHost.texts (host : ClientHost) : ConfigTexts WasmConfig := ⟨host.fromYaml, contentHash host.digest⟩

/-- What a node serves from: its reloader, and the module runtime when one is installed. -/
structure Serving where
  reloader : Reloader WasmConfig
  wasm : Option WasmRuntime

/-- Where the client is: before its first push, binding pushes, given up on the first one, or stopped by a panic, with
    what the node still serves then. -/
inductive Phase
  | awaiting
  | serving (node : Serving)
  | refused
  | panicked (node : Option Serving)

structure Client where
  phase : Phase
  lastFleetVersion : Nat
  answers : List PushAnswer

def Client.start : Client := ⟨.awaiting, 0, []⟩

def Phase.node : Phase → Option Serving
  | .serving node => some node
  | .panicked node => node
  | _ => none

/-- The snapshot that is served. -/
def Client.active (client : Client) : Option (Snapshot WasmConfig) := client.phase.node.map (·.reloader.shared)

def Client.wasm (client : Client) : Option WasmRuntime := client.phase.node.bind (·.wasm)

/-- What reaches the client: a push, with the files that its modules can be read from and the versions that streams
    hold then; a message that binds nothing; or the end of the stream, after which the supervisor dials again. -/
inductive Arrival
  | push (snap : RenderedSnapshot) (files : Files) (held : Nat → Bool)
  | other
  | streamEnded

def Arrival.snapshot : Arrival → Option RenderedSnapshot
  | .push snap _ _ => some snap
  | _ => none

/-- Nothing where the source panics. -/
def hashMismatchNote (advertised bound : String) : Option String :=
  if advertised = bound then some ""
  else
    match Text.short advertised, Text.short bound with
    | some advertised, some bound => some (" [!] advertised_render_hash=" ++ advertised ++ " != bound_hash=" ++ bound)
    | _, _ => none

def notUtf8 (bytes : List UInt8) : String := "pushed config is not utf-8: " ++ Text.utf8ErrorText bytes

def head (snap : RenderedSnapshot) : PushHead := ⟨snap.fleetVersion, snap.renderHash⟩

def nack (snap : RenderedSnapshot) (reason : String) : PushAnswer := .nack snap.fleetVersion snap.renderHash reason

/-- The first push: it bootstraps the reloader, with the module runtime that is installed then. -/
def Client.waitFirstPush (host : ClientHost) (installed : Option WasmRuntime) (client : Client)
    (snap : RenderedSnapshot) : Client :=
  match Text.fromUtf8? snap.config with
  | none => { client with phase := .refused, answers := client.answers ++ [nack snap (notUtf8 snap.config)] }
  | some text =>
    match Reloader.bootstrap host.texts text with
    | .error reason => { client with phase := .refused, answers := client.answers ++ [nack snap reason] }
    | .ok reloader =>
      let boundHash := reloader.shared.contentHash
      match hashMismatchNote snap.renderHash boundHash with
      | none => { client with phase := .panicked none }
      | some _ =>
        ⟨.serving ⟨reloader, installed⟩, snap.fleetVersion, client.answers ++ [.ack snap.fleetVersion boundHash]⟩

/-- The swap hook: there is one where there is a runtime. -/
def Serving.hook (host : ClientHost) (files : Files) (held : Nat → Bool) (node : Serving) (old : Nat)
    (next : Snapshot WasmConfig) : Except String (Option WasmRuntime) :=
  match node.wasm with
  | none => .ok none
  | some rt => (rt.onSwap host.loader files held old next).map some

/-- A reload, with what the hook does to the runtime. -/
def Serving.reload (host : ClientHost) (files : Files) (held : Nat → Bool) (node : Serving) (text : String) :
    Serving × ReloadOutcome :=
  match node.reloader.begin host.texts (node.hook host files held) text with
  | (reloader, .done outcome) => (⟨reloader, node.wasm⟩, outcome)
  | (reloader, .storing next wasm) =>
    let (reloader, outcome) := reloader.store next
    (⟨reloader, wasm⟩, outcome)

def acked : PushAnswer → Bool
  | .ack _ _ => true
  | .nack _ _ _ => false

/-- A later push. The version is remembered when it was acknowledged. -/
def Client.bindPush (host : ClientHost) (client : Client) (node : Serving) (snap : RenderedSnapshot) (files : Files)
    (held : Nat → Bool) : Client :=
  match Text.fromUtf8? snap.config with
  | none => { client with answers := client.answers ++ [nack snap (notUtf8 snap.config)] }
  | some text =>
    let (node, outcome) := node.reload host files held text
    let boundHash := node.reloader.shared.contentHash
    match hashMismatchNote snap.renderHash boundHash with
    | none => { client with phase := .panicked (some node) }
    | some _ =>
      let answer := (head snap).answer outcome boundHash
      ⟨.serving node, if acked answer then snap.fleetVersion else client.lastFleetVersion, client.answers ++ [answer]⟩

/-- One arrival. A stream that ends before the first push ends the node too. Nothing reaches a client that is over. -/
def step (host : ClientHost) (installed : Option WasmRuntime) (client : Client) (arrival : Arrival) : Option Client :=
  match client.phase, arrival with
  | .awaiting, .push snap _ _ => some (client.waitFirstPush host installed snap)
  | .awaiting, .other => some client
  | .awaiting, .streamEnded => some { client with phase := .refused }
  | .serving node, .push snap files held => some (client.bindPush host node snap files held)
  | .serving _, _ => some client
  | .refused, _ => none
  | .panicked _, _ => none

/-! ### True answers -/

def fleetVersion : PushAnswer → Nat
  | .ack version _ => version
  | .nack version _ _ => version

/-- The version of the last push that was acknowledged, zero when none was. -/
def lastAcked (answers : List PushAnswer) : Nat := (((answers.filter acked).map fleetVersion).getLast?).getD 0

/-- The bytes of a push are what the client serves: they hash to this, and its config is what they read as. -/
def Serves (host : ClientHost) (client : Client) (snap : RenderedSnapshot) (hash : String) : Prop :=
  ∃ text active, Text.fromUtf8? snap.config = some text ∧ hash = contentHash host.digest text ∧
    client.active = some active ∧ active.contentHash = hash ∧ host.fromYaml text = .ok active.config

/-- What an answer says about a push is so. -/
def Tells (host : ClientHost) (before after : Client) (snap : RenderedSnapshot) : PushAnswer → Prop
  | .ack version hash =>
    version = snap.fleetVersion ∧ Serves host after snap hash ∧ after.lastFleetVersion = version
  | .nack version _ _ =>
    version = snap.fleetVersion ∧ after.active = before.active ∧ after.wasm = before.wasm ∧
      after.lastFleetVersion = before.lastFleetVersion

/-- A push is answered once, and truthfully. -/
def Truthful (host : ClientHost) (installed : Option WasmRuntime) (client : Client) (arrival : Arrival) : Prop :=
  ∀ snap ∈ arrival.snapshot, ∀ after, step host installed client arrival = some after →
    ∃ answer, after.answers = client.answers ++ [answer] ∧ Tells host client after snap answer

/-- The advertised hash can be cut where the client cuts it, or the client does not get there: the bytes are no text, or
    they are a first push that is no config. -/
def Sliceable (host : ClientHost) (client : Client) (arrival : Arrival) : Prop :=
  ∀ snap ∈ arrival.snapshot, ∀ text ∈ Text.fromUtf8? snap.config,
    (client.phase.node.isSome ∨ (host.fromYaml text).isOk = true) → (Text.short snap.renderHash).isSome = true

/-! ### One arrival -/

variable {host : ClientHost}

theorem contentHash_short (digest : List UInt8 → List UInt8) (text : String) :
    (Text.short (contentHash digest text)).isSome = true := Text.short_isSome_of_ascii (Text.hex_ascii _)

/-- The note is written when the advertised hash can be cut; what the node bound always can. -/
theorem hashMismatchNote_isSome {advertised bound : String} (cut : (Text.short bound).isSome = true) :
    (hashMismatchNote advertised bound).isSome = (Text.short advertised).isSome := by
  obtain ⟨shown, isShown⟩ := Option.isSome_iff_exists.mp cut
  unfold hashMismatchNote
  by_cases same : advertised = bound
  · rw [if_pos same, same, cut]
    rfl
  · rw [if_neg same, isShown]
    cases Text.short advertised <;> rfl

/-- A reload finds the text active, refuses it and leaves what is served, or serves it. -/
theorem reload_cases (host : ClientHost) (files : Files) (held : Nat → Bool) (node : Serving) (text : String) :
    (node.reload host files held text = (node, .noOp node.reloader.shared.version) ∧
        contentHash host.digest text = node.reloader.shared.contentHash) ∨
      (∃ rendered, node.reload host files held text =
        (⟨⟨node.reloader.shared, rendered⟩, node.wasm⟩, .rejected node.reloader.shared.version)) ∨
      ∃ next rendered wasm, node.reload host files held text =
          (⟨⟨next, rendered⟩, wasm⟩, .swapped node.reloader.shared.version next.version) ∧
        host.fromYaml text = .ok next.config ∧ next.contentHash = contentHash host.digest text := by
  unfold Serving.reload
  rcases node.reloader.begin_cases host.texts (node.hook host files held) text with
    ⟨outcome, done, ⟨rfl, same⟩ | rfl⟩ | ⟨next, -, hash, parsed, refused | ⟨wasm, -, storing⟩⟩
  · exact .inl ⟨by rw [done], same⟩
  · exact .inr (.inl ⟨node.reloader.rendered, by rw [done]⟩)
  · exact .inr (.inl ⟨node.reloader.rendered + 1, by rw [refused]⟩)
  · exact .inr (.inr ⟨next, node.reloader.rendered + 1, wasm, by rw [storing]; rfl, parsed, hash⟩)

/-- What is served was rendered from a text of the set. -/
def Rendered (host : ClientHost) (texts : Set String) (snapshot : Snapshot WasmConfig) : Prop :=
  ∃ text ∈ texts, host.fromYaml text = .ok snapshot.config ∧ snapshot.contentHash = contentHash host.digest text

theorem Rendered.short {texts : Set String} {snapshot : Snapshot WasmConfig} (rendered : Rendered host texts snapshot) :
    (Text.short snapshot.contentHash).isSome = true := by
  obtain ⟨text, -, -, hash⟩ := rendered
  rw [hash]
  exact contentHash_short host.digest text

/-- What the client serves was rendered from a text that was pushed. -/
structure Served (host : ClientHost) (texts : Set String) (client : Client) : Prop where
  rendered : ∀ snapshot ∈ client.active, Rendered host texts snapshot

/-- The text of an arrival is among these. -/
def Brings (texts : Set String) (arrival : Arrival) : Prop :=
  ∀ snap ∈ arrival.snapshot, ∀ text ∈ Text.fromUtf8? snap.config, text ∈ texts

section

variable {texts : Set String} {client after : Client} {snap : RenderedSnapshot}

/-- What is served after a reload was rendered from a text of the set, and is what its text reads as when the outcome is
    acknowledged. -/
theorem reload_rendered (distinct : Set.InjOn (contentHash host.digest) texts) {node : Serving}
    (rendered : Rendered host texts node.reloader.shared) {text : String} (brought : text ∈ texts) (files : Files)
    (held : Nat → Bool) :
    let result := node.reload host files held text
    Rendered host texts result.1.reloader.shared ∧
      match result.2 with
      | .rejected _ => result.1.reloader.shared = node.reloader.shared ∧ result.1.wasm = node.wasm
      | _ => result.1.reloader.shared.contentHash = contentHash host.digest text ∧
        host.fromYaml text = .ok result.1.reloader.shared.config := by
  rcases reload_cases host files held node text with ⟨result, same⟩ | ⟨counter, result⟩ | ⟨next, counter, wasm, result,
    parsed, hash⟩
  · rw [result]
    obtain ⟨origin, inside, parsed, hash⟩ := rendered
    have unique : origin = text := distinct inside brought (hash.symm.trans same.symm)
    exact ⟨⟨origin, inside, parsed, hash⟩, same.symm, unique ▸ parsed⟩
  · rw [result]
    exact ⟨rendered, rfl, rfl⟩
  · rw [result]
    exact ⟨⟨text, brought, parsed, hash⟩, hash, parsed⟩

/-- A push that is not answered is no truthful one. -/
theorem not_truthful {installed : Option WasmRuntime} {arrival : Arrival} (pushed : arrival.snapshot = some snap)
    (stepped : step host installed client arrival = some after) (unanswered : after.answers = client.answers) :
    ¬ Truthful host installed client arrival := by
  intro truthful
  obtain ⟨answer, appended, -⟩ := truthful snap pushed after stepped
  rw [unanswered] at appended
  simpa using congrArg List.length appended

/-- A push that is answered truthfully once. -/
theorem truthful_of_answer {installed : Option WasmRuntime} {files : Files} {held : Nat → Bool} {answer : PushAnswer}
    (stepped : step host installed client (.push snap files held) = some after)
    (appended : after.answers = client.answers ++ [answer]) (tells : Tells host client after snap answer) :
    Truthful host installed client (.push snap files held) := by
  intro pushed same result reached
  obtain rfl := Option.some.inj same
  rw [stepped, Option.some.injEq] at reached
  subst reached
  exact ⟨answer, appended, tells⟩

/-- The client gets to cut the advertised hash of a push that reads as a text which is bound. -/
theorem sliceable_iff_short {files : Files} {held : Nat → Bool} {text : String}
    (decoded : Text.fromUtf8? snap.config = some text)
    (gets : client.phase.node.isSome ∨ (host.fromYaml text).isOk = true) :
    Sliceable host client (.push snap files held) ↔ (Text.short snap.renderHash).isSome = true := by
  constructor
  · exact fun met => met snap rfl text decoded gets
  · intro fits pushed same _ _ _
    obtain rfl := Option.some.inj same
    exact fits

/-- The first push is refused and answered, or it bootstraps the reloader, and then the note panics or the client
    serves. -/
theorem waitFirstPush_cases (host : ClientHost) (installed : Option WasmRuntime) (client : Client)
    (snap : RenderedSnapshot) :
    (∃ reason, client.waitFirstPush host installed snap =
        { client with phase := .refused, answers := client.answers ++ [nack snap reason] } ∧
      ∀ text ∈ Text.fromUtf8? snap.config, ∃ e, Reloader.bootstrap host.texts text = .error e) ∨
    ∃ text reloader, Text.fromUtf8? snap.config = some text ∧ Reloader.bootstrap host.texts text = .ok reloader ∧
      ((hashMismatchNote snap.renderHash reloader.shared.contentHash = none ∧
          client.waitFirstPush host installed snap = { client with phase := .panicked none }) ∨
        ((hashMismatchNote snap.renderHash reloader.shared.contentHash).isSome = true ∧
          client.waitFirstPush host installed snap = ⟨.serving ⟨reloader, installed⟩, snap.fleetVersion,
            client.answers ++ [.ack snap.fleetVersion reloader.shared.contentHash]⟩)) := by
  unfold Client.waitFirstPush
  cases decoded : Text.fromUtf8? snap.config with
  | none => exact .inl ⟨_, rfl, fun _ reads => nomatch reads⟩
  | some text =>
    cases boots : Reloader.bootstrap host.texts text with
    | error reason =>
      refine .inl ⟨reason, by simp only [boots], fun other reads => ?_⟩
      obtain rfl := Option.some.inj reads
      exact ⟨reason, boots⟩
    | ok reloader =>
      refine .inr ⟨text, reloader, rfl, boots, ?_⟩
      cases note : hashMismatchNote snap.renderHash reloader.shared.contentHash with
      | none => exact .inl ⟨rfl, by simp only [boots, note]⟩
      | some shown => exact .inr ⟨rfl, by simp only [boots, note]⟩

/-- A later push is no text and is answered so, or it is reloaded, and then the note panics or the outcome is
    answered. -/
theorem bindPush_cases (host : ClientHost) (client : Client) (node : Serving) (snap : RenderedSnapshot) (files : Files)
    (held : Nat → Bool) :
    (Text.fromUtf8? snap.config = none ∧ client.bindPush host node snap files held =
      { client with answers := client.answers ++ [nack snap (notUtf8 snap.config)] }) ∨
    ∃ text next outcome, Text.fromUtf8? snap.config = some text ∧
      node.reload host files held text = (next, outcome) ∧
      ((hashMismatchNote snap.renderHash next.reloader.shared.contentHash = none ∧
          client.bindPush host node snap files held = { client with phase := .panicked (some next) }) ∨
        ((hashMismatchNote snap.renderHash next.reloader.shared.contentHash).isSome = true ∧
          client.bindPush host node snap files held =
            let answer := (head snap).answer outcome next.reloader.shared.contentHash
            ⟨.serving next, if acked answer then snap.fleetVersion else client.lastFleetVersion,
              client.answers ++ [answer]⟩)) := by
  unfold Client.bindPush
  cases decoded : Text.fromUtf8? snap.config with
  | none => exact .inl ⟨rfl, rfl⟩
  | some text =>
    refine .inr ⟨text, (node.reload host files held text).1, (node.reload host files held text).2, rfl, rfl, ?_⟩
    cases note : hashMismatchNote snap.renderHash
        (node.reload host files held text).1.reloader.shared.contentHash with
    | none => exact .inl ⟨rfl, by simp only [note]⟩
    | some shown => exact .inr ⟨rfl, by simp only [note]⟩

theorem waitFirstPush_spec {installed : Option WasmRuntime} (awaiting : client.phase = .awaiting) (files : Files)
    (held : Nat → Bool) (brings : Brings texts (.push snap files held)) :
    Served host texts (client.waitFirstPush host installed snap) ∧
      (Truthful host installed client (.push snap files held) ↔ Sliceable host client (.push snap files held)) := by
  have stepped : step host installed client (.push snap files held) = some (client.waitFirstPush host installed snap) :=
    by simp only [step, awaiting]
  rcases waitFirstPush_cases host installed client snap with
    ⟨reason, refusal, unbound⟩ | ⟨text, reloader, decoded, boots, outcomes⟩
  · have idle : client.active = none ∧ client.wasm = none := by simp [Client.active, Client.wasm, awaiting, Phase.node]
    rw [refusal] at stepped ⊢
    refine ⟨⟨fun snapshot inside => (nomatch inside)⟩, iff_of_true ?_ ?_⟩
    · exact truthful_of_answer stepped rfl ⟨rfl, idle.1.symm, idle.2.symm, rfl⟩
    · intro pushed same text reads gets
      obtain rfl := Option.some.inj same
      obtain ⟨e, fails⟩ := unbound text reads
      exfalso
      rcases gets with serving | valid
      · simp [awaiting, Phase.node] at serving
      · cases parsed : host.fromYaml text with
        | error e => simp [parsed, Except.isOk, Except.toBool] at valid
        | ok config => simp [Reloader.bootstrap, renderText, ClientHost.texts, parsed, Except.map] at fails
  · obtain ⟨parsed, -, hash, -⟩ := Reloader.bootstrap_spec boots
    have valid : host.fromYaml text = .ok reloader.shared.config := parsed
    have rendered : Rendered host texts reloader.shared := ⟨text, brings snap rfl text decoded, parsed, hash⟩
    rw [sliceable_iff_short decoded (.inr (by rw [valid]; rfl)),
      ← @hashMismatchNote_isSome snap.renderHash _ rendered.short]
    rcases outcomes with ⟨note, panics⟩ | ⟨note, binds⟩
    · rw [panics] at stepped ⊢
      rw [note]
      exact ⟨⟨fun snapshot inside => (nomatch inside)⟩, iff_of_false (not_truthful rfl stepped rfl) (by simp)⟩
    · rw [binds] at stepped ⊢
      refine ⟨⟨?_⟩, iff_of_true ?_ note⟩
      · intro snapshot inside
        obtain rfl := Option.some.inj inside
        exact rendered
      · exact truthful_of_answer stepped rfl ⟨rfl, ⟨text, reloader.shared, decoded, hash, rfl, rfl, parsed⟩, rfl⟩

theorem bindPush_spec {installed : Option WasmRuntime} {node : Serving}
    (distinct : Set.InjOn (contentHash host.digest) texts) (served : Served host texts client)
    (serving : client.phase = .serving node) (files : Files) (held : Nat → Bool)
    (brings : Brings texts (.push snap files held)) :
    Served host texts (client.bindPush host node snap files held) ∧
      (Truthful host installed client (.push snap files held) ↔ Sliceable host client (.push snap files held)) := by
  have stepped : step host installed client (.push snap files held) =
      some (client.bindPush host node snap files held) := by simp only [step, serving]
  have active : client.active = some node.reloader.shared ∧ client.wasm = node.wasm := by
    simp [Client.active, Client.wasm, serving, Phase.node]
  rcases bindPush_cases host client node snap files held with
    ⟨undecoded, refusal⟩ | ⟨text, next, outcome, decoded, reloads, outcomes⟩
  · rw [refusal] at stepped ⊢
    refine ⟨⟨served.rendered⟩, iff_of_true ?_ ?_⟩
    · exact truthful_of_answer stepped rfl ⟨rfl, rfl, rfl, rfl⟩
    · intro pushed same text reads
      obtain rfl := Option.some.inj same
      rw [undecoded] at reads
      cases reads
  · have before : Rendered host texts node.reloader.shared := served.rendered _ active.1
    obtain ⟨rendered, told⟩ := reload_rendered distinct before (brings snap rfl text decoded) files held
    rw [reloads] at rendered told
    rw [sliceable_iff_short decoded (.inl (by simp [serving, Phase.node])),
      ← @hashMismatchNote_isSome snap.renderHash _ rendered.short]
    rcases outcomes with ⟨note, panics⟩ | ⟨note, binds⟩
    · rw [panics] at stepped ⊢
      rw [note]
      refine ⟨⟨?_⟩, iff_of_false (not_truthful rfl stepped rfl) (by simp)⟩
      intro snapshot inside
      obtain rfl := Option.some.inj inside
      exact rendered
    · rw [binds] at stepped ⊢
      refine ⟨⟨?_⟩, iff_of_true (truthful_of_answer stepped rfl ?_) note⟩
      · intro snapshot inside
        obtain rfl := Option.some.inj inside
        exact rendered
      · cases outcome with
        | swapped old new =>
          obtain ⟨hash, parsed⟩ := told
          exact ⟨rfl, ⟨text, next.reloader.shared, decoded, hash, rfl, rfl, parsed⟩, rfl⟩
        | noOp version =>
          obtain ⟨hash, parsed⟩ := told
          exact ⟨rfl, ⟨text, next.reloader.shared, decoded, hash, rfl, rfl, parsed⟩, rfl⟩
        | rejected version =>
          obtain ⟨shared, wasm⟩ := told
          refine ⟨rfl, ?_, ?_, rfl⟩
          · rw [active.1, ← shared]
            rfl
          · rw [active.2, ← wasm]
            rfl

end

/-! ### Runs -/

section

variable {texts : Set String} {installed : Option WasmRuntime} {client after : Client} {arrival : Arrival}

/-- What an arrival that is no push does. -/
theorem step_other (unpushed : arrival.snapshot = none) (stepped : step host installed client arrival = some after) :
    after.answers = client.answers ∧ after.lastFleetVersion = client.lastFleetVersion ∧
      ∀ snapshot ∈ after.active, snapshot ∈ client.active := by
  cases phase : client.phase with
  | refused => simp [step, phase] at stepped
  | panicked node => simp [step, phase] at stepped
  | awaiting =>
    cases arrival with
    | push snap files held => cases unpushed
    | other =>
      simp only [step, phase, Option.some.injEq] at stepped
      exact stepped ▸ ⟨rfl, rfl, fun _ inside => inside⟩
    | streamEnded =>
      simp only [step, phase, Option.some.injEq] at stepped
      exact stepped ▸ ⟨rfl, rfl, fun _ inside => nomatch inside⟩
  | serving node =>
    cases arrival with
    | push snap files held => cases unpushed
    | other =>
      simp only [step, phase, Option.some.injEq] at stepped
      exact stepped ▸ ⟨rfl, rfl, fun _ inside => inside⟩
    | streamEnded =>
      simp only [step, phase, Option.some.injEq] at stepped
      exact stepped ▸ ⟨rfl, rfl, fun _ inside => inside⟩

/-- A push is truthfully answered exactly when its advertised hash is not cut inside a character. -/
theorem step_spec (distinct : Set.InjOn (contentHash host.digest) texts) (served : Served host texts client)
    (brings : Brings texts arrival) (stepped : step host installed client arrival = some after) :
    Served host texts after ∧ (Truthful host installed client arrival ↔ Sliceable host client arrival) := by
  cases pushed : arrival.snapshot with
  | none =>
    refine ⟨⟨fun snapshot inside => served.rendered snapshot ((step_other pushed stepped).2.2 snapshot inside)⟩, ?_⟩
    exact iff_of_true (fun snap same => by simp [pushed] at same) fun snap same => by simp [pushed] at same
  | some snap =>
    cases arrival with
    | other => cases pushed
    | streamEnded => cases pushed
    | push snapshot files held =>
      cases phase : client.phase with
      | awaiting =>
        simp only [step, phase, Option.some.injEq] at stepped
        subst stepped
        exact waitFirstPush_spec phase files held brings
      | serving node =>
        simp only [step, phase, Option.some.injEq] at stepped
        subst stepped
        exact bindPush_spec distinct served phase files held brings
      | refused => simp [step, phase] at stepped
      | panicked node => simp [step, phase] at stepped

theorem lastAcked_ack (answers : List PushAnswer) {answer : PushAnswer} (isAck : acked answer = true) :
    lastAcked (answers ++ [answer]) = fleetVersion answer := by
  simp [lastAcked, List.filter_append, isAck]

theorem lastAcked_nack (answers : List PushAnswer) {answer : PushAnswer} (isNack : acked answer = false) :
    lastAcked (answers ++ [answer]) = lastAcked answers := by
  simp [lastAcked, List.filter_append, isNack]

theorem answer_fleetVersion (push : PushHead) (outcome : ReloadOutcome) (boundHash : String) :
    fleetVersion (push.answer outcome boundHash) = push.fleetVersion := by
  cases outcome <;> rfl

/-- The version that is remembered is the last one acknowledged, answered or not. -/
theorem remembers : Runs.Preserves (step host installed) fun client =>
    client.lastFleetVersion = lastAcked client.answers := by
  intro client arrival after remembered stepped
  cases pushed : arrival.snapshot with
  | none =>
    obtain ⟨answers, last, -⟩ := step_other pushed stepped
    rw [answers, last, remembered]
  | some snap =>
    cases arrival with
    | other => cases pushed
    | streamEnded => cases pushed
    | push snapshot files held =>
      have unacked : ∀ reason, lastAcked (client.answers ++ [nack snapshot reason]) = client.lastFleetVersion :=
        fun reason => (lastAcked_nack _ rfl).trans remembered.symm
      cases phase : client.phase with
      | refused => simp [step, phase] at stepped
      | panicked node => simp [step, phase] at stepped
      | awaiting =>
        simp only [step, phase, Option.some.injEq] at stepped
        subst stepped
        rcases waitFirstPush_cases host installed client snapshot with
          ⟨reason, refusal, -⟩ | ⟨text, reloader, -, -, ⟨-, panics⟩ | ⟨-, binds⟩⟩
        · rw [refusal]
          exact (unacked _).symm
        · rw [panics]
          exact remembered
        · rw [binds]
          exact (@lastAcked_ack client.answers (.ack _ _) rfl).symm
      | serving node =>
        simp only [step, phase, Option.some.injEq] at stepped
        subst stepped
        rcases bindPush_cases host client node snapshot files held with
          ⟨-, refusal⟩ | ⟨text, next, outcome, -, -, ⟨-, panics⟩ | ⟨-, binds⟩⟩
        · rw [refusal]
          exact (unacked _).symm
        · rw [panics]
          exact remembered
        · rw [binds]
          dsimp only
          cases isAck : acked ((head snapshot).answer outcome next.reloader.shared.contentHash) with
          | true =>
            rw [if_pos rfl, lastAcked_ack _ isAck, answer_fleetVersion]
            rfl
          | false => rw [if_neg Bool.false_ne_true, lastAcked_nack _ isAck, remembered]

/-- Truthful answers are one for each push, in the order of the pushes. -/
theorem answered_in_order {arrivals : List Arrival}
    (truthful : Runs.Along (step host installed) (Truthful host installed) client arrivals)
    (executed : Runs.exec (step host installed) client arrivals = some after) :
    after.answers.map fleetVersion =
      client.answers.map fleetVersion ++ (arrivals.filterMap Arrival.snapshot).map (·.fleetVersion) := by
  induction arrivals generalizing client with
  | nil =>
    rw [Runs.exec_nil, Option.some.injEq] at executed
    simp [executed]
  | cons arrival rest ih =>
    obtain ⟨next, stepped, others⟩ := Runs.exec_cons.mp executed
    have tail := ih (truthful.2 next stepped) others
    cases pushed : arrival.snapshot with
    | none =>
      rw [tail, (step_other pushed stepped).1, List.filterMap_cons_none pushed]
    | some snap =>
      obtain ⟨answer, appended, tells⟩ := truthful.1 snap pushed next stepped
      have version : fleetVersion answer = snap.fleetVersion := by
        cases answer with
        | ack version hash => exact tells.1
        | nack version hash reason => exact tells.1
      rw [tail, appended, List.filterMap_cons_some pushed]
      simp [version]

end

/-- The texts that are pushed. -/
def pushedTexts (arrivals : List Arrival) : List String :=
  (arrivals.filterMap Arrival.snapshot).filterMap fun snap => Text.fromUtf8? snap.config

theorem pushedTexts_brings {arrivals : List Arrival} {arrival : Arrival} (inside : arrival ∈ arrivals) :
    Brings {text | text ∈ pushedTexts arrivals} arrival := by
  intro snap pushed text reads
  exact List.mem_filterMap.mpr ⟨snap, List.mem_filterMap.mpr ⟨arrival, inside, pushed⟩, reads⟩

/-- For every sequence of pushes, with any bytes and any advertised hashes, in which the digest tells the pushed texts
    apart: each push is answered once and truthfully, the answers are in the order of the pushes, and the remembered
    version is that of the last acknowledged one, if and only if no advertised hash of a push that is bound or compared
    with what is bound is cut inside a character. -/
theorem answers_truthful_iff (host : ClientHost) (installed : Option WasmRuntime) (arrivals : List Arrival)
    (client : Client) (executed : Runs.exec (step host installed) .start arrivals = some client)
    (distinct : Set.InjOn (contentHash host.digest) {text | text ∈ pushedTexts arrivals}) :
    (Runs.Along (step host installed) (Truthful host installed) .start arrivals ∧
        client.answers.map fleetVersion = (arrivals.filterMap Arrival.snapshot).map (·.fleetVersion) ∧
        client.lastFleetVersion = lastAcked client.answers) ↔
      Runs.Along (step host installed) (Sliceable host) .start arrivals := by
  have brings : Runs.Along (step host installed) (fun _ arrival => Brings {text | text ∈ pushedTexts arrivals} arrival)
      .start arrivals := Runs.along_of_forall fun _ _ inside => pushedTexts_brings inside
  have idle : Served host {text | text ∈ pushedTexts arrivals} .start := ⟨fun snapshot inside => nomatch inside⟩
  have same := Runs.along_congr_along
    (fun client arrival after served brings stepped => (step_spec distinct served brings stepped).1)
    (fun client arrival after served brings stepped => (step_spec distinct served brings stepped).2) idle brings
    executed
  rw [← same, and_iff_left_iff_imp]
  intro truthful
  exact ⟨answered_in_order truthful executed, Runs.exec_preserves remembers rfl executed⟩

/-- The digests of the two texts that are pushed below. -/
def sha256 (bytes : List UInt8) : List UInt8 :=
  if bytes = [97] then
    [202, 151, 129, 18, 202, 27, 189, 202, 250, 194, 49, 179, 154, 35, 220, 77, 167, 134, 239, 248, 20, 124, 78, 114,
      185, 128, 119, 133, 175, 238, 72, 187]
  else if bytes = [98] then
    [62, 35, 232, 22, 0, 57, 89, 74, 51, 137, 79, 101, 100, 225, 177, 52, 139, 189, 122, 0, 136, 212, 44, 74, 203, 115,
      238, 174, 213, 156, 0, 157]
  else []

/-- Every text of one letter is a config without modules. -/
def plainHost : ClientHost where
  fromYaml text := if text.length = 1 then .ok ⟨[], text = "b"⟩ else .error "no config"
  digest := sha256
  loader := ⟨[], fun _ _ => [], fun _ => .ok []⟩

def pushOf (version : Nat) (config : List UInt8) (renderHash : String) : Arrival :=
  .push ⟨"n1", "commit", renderHash, version, config⟩ (fun _ => .error "") (fun _ => false)

/-- A first push under a stale hash, a second config, bytes that are no text and text that is no config, and the second
    config again. -/
def fiveAnswers : List Arrival :=
  [pushOf 1 [97] "stale", .streamEnded, pushOf 2 [98] "stale", pushOf 3 [255] "stale", .other,
    pushOf 4 [98, 97] "stale", pushOf 5 [98] "stale"]

instance (host : ClientHost) (client : Client) (arrival : Arrival) : Decidable (Sliceable host client arrival) := by
  unfold Sliceable
  infer_instance

theorem fiveAnswers_truthful :
    let client := (Runs.exec (step plainHost none) .start fiveAnswers).getD .start
    Runs.Along (step plainHost none) (Truthful plainHost none) .start fiveAnswers ∧
      client.answers.map fleetVersion = [1, 2, 3, 4, 5] ∧ client.lastFleetVersion = lastAcked client.answers := by
  have distinct : ∀ x ∈ pushedTexts fiveAnswers, ∀ y ∈ pushedTexts fiveAnswers,
      contentHash sha256 x = contentHash sha256 y → x = y := by decide +kernel
  exact (answers_truthful_iff plainHost none fiveAnswers _ (Runs.exec_eq_getD _ _ _ (by decide +kernel) _)
    fun x first y second same => distinct x first y second same).mpr (by decide +kernel)

/-- A push is advertised with a hash whose twelfth byte is inside a character: it is bound, the note of the mismatch
    panics, and no answer is sent. -/
theorem cut_hash_unanswered :
    ¬ ∀ (host : ClientHost) (arrivals : List Arrival) (client : Client),
      Set.InjOn (contentHash host.digest) {text | text ∈ pushedTexts arrivals} →
      Runs.exec (step host none) .start arrivals = some client →
        Runs.Along (step host none) (Truthful host none) .start arrivals := by
  intro claimed
  let arrivals := [pushOf 1 [97] "stale", pushOf 2 [98] "hash-of-v2-é"]
  have distinct : ∀ x ∈ pushedTexts arrivals, ∀ y ∈ pushedTexts arrivals,
      contentHash sha256 x = contentHash sha256 y → x = y := by decide +kernel
  have executed := Runs.exec_eq_getD (step plainHost none) .start arrivals (by decide +kernel) .start
  have answered := answered_in_order (claimed plainHost arrivals _ distinct executed) executed
  exact absurd answered (by decide +kernel)

end PushAnswers

end SmallGateway
