import SmallGateway.Fleet
import SmallGateway.Lib.Fallible
import SmallGateway.Lib.Runs

/-!
Pushes and the answers to them (`gatewayctl/src/server.rs`: `Sessions`, `push_and_await`, `clear_pending`;
`gatewayctl/src/rollout.rs`: `run_wave_nodes`, `run_wave`). A push takes a number of its own and leaves a waiter in a
slot of the node's session under it; an answer of the node fires every waiter there that awaits its version. Versions
are minted under one lock and the slots filled under another, any number of waves, heals, rollbacks and bootstraps are
under way at once, and answers come late, twice or not at all. The main result is that a waiter is fired at most once
and by an answer of its node for its version, so that a committed wave was acknowledged by every node it was pushed to
(`correlated`).
-/

namespace SmallGateway

/-- One pending push: the version that its answer carries, and the waiter that it fires. Waiters are named by the order
    in which they were made. -/
structure Pending where
  awaitedVersion : Nat
  waiter : Nat
  deriving DecidableEq

/-- The pushes in flight to a connected node, under their numbers. -/
structure Session where
  pending : Std.TreeMap Nat Pending

/-- The receiving half of a push, with what it was made for and what was sent to it. -/
structure Waiter where
  nodeId : String
  version : Nat
  sent : List AckResult
  deriving DecidableEq

/-- What a push leaves its task with: the number and the waiter, or nothing when the node's stream was gone. -/
abbrev PendingHandle := Option (Nat × Nat)

namespace Correlation

/-- An answer of a node to a push. -/
inductive Answer
  | ack (hash : String)
  | nack (reason : String)
  deriving DecidableEq

def Answer.result : Answer → AckResult
  | .ack hash => .acked hash
  | .nack reason => .nacked reason

/-- One push of a wave: the node, the hash that is expected of it, the version, and the handle of the push. -/
structure Pushed where
  nodeId : String
  hash : String
  version : Nat
  handle : PendingHandle

/-- A wave under way. A wave of raw bytes pushes one render to all of its nodes, any other wave its desired render to
    each. For the next node, the render is computed, then its version minted, then the snapshot pushed. -/
structure Wave where
  raw : Option Rendered
  nodeIds : List String
  remaining : List String
  rendered : Option Rendered
  minted : Option (Rendered × Nat)
  version : Nat
  pushed : List Pushed
  results : List (String × AckResult)
  clearing : Bool
  outcome : Option WaveOutcome

/-- A push that is no wave: a bootstrap, a heal, or one node of a rollback. -/
inductive Single
  | minted (nodeId : String) (rendered : Rendered) (version : Nat)
  | waiting (nodeId : String) (handle : PendingHandle)
  | ended

end Correlation

/-- The fleet, the sessions, the number of the next push, and the waiters made so far; the waves and the other pushes
    under way; and what has happened: the versions minted, with the hash they are for, and the answers received. -/
structure Correlation where
  fleet : Fleet
  sessions : Std.TreeMap String Session
  nextPush : Nat
  waiters : List Waiter
  waves : List Correlation.Wave
  singles : List Correlation.Single
  mints : List (String × Nat × String)
  answers : List (String × Nat × AckResult)

namespace Correlation

/-! ### The sessions -/

def insert (s : Correlation) (nodeId : String) : Correlation := { s with sessions := s.sessions.insert nodeId ⟨∅⟩ }

def remove (s : Correlation) (nodeId : String) : Correlation := { s with sessions := s.sessions.erase nodeId }

/-- Sends a result to a waiter. -/
def fire (waiters : List Waiter) (i : Nat) (result : AckResult) : List Waiter :=
  waiters.modify i fun waiter => { waiter with sent := waiter.sent ++ [result] }

/-- Takes one push out of its slot, and fires its waiter. -/
def deliverTo (nodeId : String) (result : AckResult) (s : Correlation) (pushId : Nat) : Correlation :=
  match s.sessions[nodeId]? with
  | none => s
  | some session =>
    match session.pending[pushId]? with
    | none => s
    | some pending =>
      { s with
        sessions := s.sessions.insert nodeId ⟨session.pending.erase pushId⟩
        waiters := fire s.waiters pending.waiter result }

/-- The pushes to a node that await a version. -/
def matched (s : Correlation) (nodeId : String) (version : Nat) : List Nat :=
  match s.sessions[nodeId]? with
  | none => []
  | some session => (session.pending.toList.filter fun entry => entry.2.awaitedVersion == version).map (·.1)

/-- Routes an answer to every push that awaits its version. -/
def deliver (s : Correlation) (nodeId : String) (version : Nat) (answer : Answer) : Correlation :=
  (s.matched nodeId version).foldl (deliverTo nodeId answer.result)
    { s with answers := s.answers ++ [(nodeId, version, answer.result)] }

/-- Takes the next number, of which 64 bits leave enough, and leaves a waiter in the node's session, which is taken out
    again when nothing can be sent on the stream. -/
def pushAndAwait (s : Correlation) (nodeId : String) (version : Nat) (sends : Bool) : PendingHandle × Correlation :=
  let pushId := s.nextPush
  match s.sessions[nodeId]? with
  | none => (none, { s with nextPush := pushId + 1 })
  | some session =>
    let pending := session.pending.insert pushId ⟨version, s.waiters.length⟩
    let waiters := s.waiters ++ [⟨nodeId, version, []⟩]
    if sends then
      (some (pushId, s.waiters.length),
        { s with nextPush := pushId + 1, waiters, sessions := s.sessions.insert nodeId ⟨pending⟩ })
    else
      (none,
        { s with nextPush := pushId + 1, waiters, sessions := s.sessions.insert nodeId ⟨pending.erase pushId⟩ })

def clearPending (s : Correlation) (nodeId : String) (pushId : Nat) : Correlation :=
  match s.sessions[nodeId]? with
  | none => s
  | some session => { s with sessions := s.sessions.insert nodeId ⟨session.pending.erase pushId⟩ }

/-- Mints a version for a push of a render. -/
def mint (s : Correlation) (nodeId : String) (rendered : Rendered) : Nat × Correlation :=
  let (version, fleet) := s.fleet.nextVersionFor nodeId rendered.renderHash
  (version, { s with fleet, mints := s.mints ++ [(nodeId, version, rendered.renderHash)] })

/-! ### Waves and other pushes -/

/-- The next step of a wave, with what it meets: the labels of a node, whether its stream takes the push. -/
inductive WaveMove
  | render (labels : Option Labels)
  | mint
  | push (sends : Bool)
  | take
  | giveUp
  | clear
  | conclude

/-- The push whose answer the wave takes next. -/
def Wave.awaits (wave : Wave) : Option Pushed :=
  if wave.remaining.isEmpty then wave.pushed[wave.results.length]? else none

/-- The waiter has been fired, and with what first. -/
def received (s : Correlation) (i : Nat) : Option AckResult := s.waiters[i]?.bind (·.sent.head?)

def Wave.answered (wave : Wave) (nodeId : String) (result : AckResult) : Wave :=
  { wave with results := wave.results ++ [(nodeId, result)], clearing := false }

/-- What each node was pushed; a raw wave has one hash for every node that answered. -/
def Wave.expected (wave : Wave) : List (String × String) :=
  match wave.raw with
  | none => wave.pushed.map fun pushed => (pushed.nodeId, pushed.hash)
  | some rendered => wave.results.map fun entry => (entry.1, rendered.renderHash)

def Wave.outcomeHash (wave : Wave) : String :=
  match wave.raw with
  | none => ((wave.pushed.head?).map (·.hash)).getD ""
  | some rendered => rendered.renderHash

def waveTurn (texts : RenderTexts) (s : Correlation) (wave : Wave) : WaveMove → Option (Correlation × Wave)
  | .render labels =>
    if wave.rendered.isNone && wave.minted.isNone && !wave.remaining.isEmpty then
      match wave.raw, labels with
      | some rendered, _ => some (s, { wave with rendered := some rendered })
      | none, none => some (s, { wave with rendered := some s.fleet.applied })
      | none, some labels =>
        let (rendered, fleet) := s.fleet.desiredFor texts labels
        some ({ s with fleet }, { wave with rendered := some rendered })
    else none
  | .mint =>
    match wave.remaining, wave.rendered with
    | nodeId :: _, some rendered =>
      let (version, s) := s.mint nodeId rendered
      some (s, { wave with rendered := none, minted := some (rendered, version), version := max wave.version version })
    | _, _ => none
  | .push sends =>
    match wave.remaining, wave.minted with
    | nodeId :: remaining, some (rendered, version) =>
      let (handle, s) := s.pushAndAwait nodeId version sends
      some (s,
        { wave with
          remaining, minted := none, pushed := wave.pushed ++ [⟨nodeId, rendered.renderHash, version, handle⟩] })
    | _, _ => none
  | .take =>
    if wave.clearing then none
    else
      match wave.awaits with
      | none => none
      | some pushed =>
        match pushed.handle with
        | none => some (s, wave.answered pushed.nodeId .silent)
        | some (_, waiter) => (s.received waiter).map fun result => (s, wave.answered pushed.nodeId result)
  | .giveUp =>
    -- The wait has timed out, or the sender of the waiter was dropped with its session.
    match wave.awaits with
    | some ⟨_, _, _, some (_, waiter)⟩ =>
      if (s.received waiter).isNone && !wave.clearing then some (s, { wave with clearing := true }) else none
    | _ => none
  | .clear =>
    match wave.awaits with
    | some ⟨nodeId, _, _, some (pushId, _)⟩ =>
      if wave.clearing then some (s.clearPending nodeId pushId, wave.answered nodeId .silent) else none
    | _ => none
  | .conclude =>
    if wave.outcome.isNone && wave.remaining.isEmpty && wave.results.length == wave.pushed.length then
      let (outcome, fleet) := s.fleet.concludeWaveMulti wave.outcomeHash wave.expected wave.version wave.results
      some ({ s with fleet }, { wave with outcome := some outcome })
    else none

inductive SingleMove
  | push (sends : Bool)
  | settle
  | clear

/-- A push that is no wave ends when it is answered, or when it has taken itself out of its slot. -/
def singleTurn (s : Correlation) : Single → SingleMove → Option (Correlation × Single)
  | .minted nodeId _ version, .push sends =>
    let (handle, s) := s.pushAndAwait nodeId version sends
    some (s, .waiting nodeId handle)
  | .waiting _ _, .settle => some (s, .ended)
  | .waiting nodeId (some (pushId, _)), .clear => some (s.clearPending nodeId pushId, .ended)
  | _, _ => none

inductive Action
  /-- A stream of the node is opened, in place of one that is there. -/
  | open_ (nodeId : String)
  | close (nodeId : String)
  | answer (nodeId : String) (version : Nat) (answer : Answer)
  /-- Another source is applied. -/
  | apply (next : Rendered) (resolved : ResolvedRepo) (plan : WavePlan)
  /-- A wave of a plan begins, over the nodes connected when the plan was assigned. -/
  | wave (plan : WavePlan) (connected : Std.TreeMap String Labels) (place : Nat)
  /-- Bytes are pushed to every node with a session. -/
  | raw (rendered : Rendered)
  | move (i : Nat) (move : WaveMove)
  /-- A version is minted for a single push of some render. -/
  | single (nodeId : String) (rendered : Rendered)
  | singleMove (i : Nat) (move : SingleMove)

def beginWave (s : Correlation) (raw : Option Rendered) (nodeIds : List String) : Correlation :=
  { s with
    waves := s.waves ++ [⟨raw, nodeIds, nodeIds, none, none, s.fleet.committedVersion, [], [], false, none⟩] }

def step (texts : RenderTexts) (s : Correlation) : Action → Option Correlation
  | .open_ nodeId => some (s.insert nodeId)
  | .close nodeId => some (s.remove nodeId)
  | .answer nodeId version answer => some (s.deliver nodeId version answer)
  | .apply next resolved plan => some { s with fleet := (s.fleet.setAppliedFromSource next resolved plan).2 }
  | .wave plan connected place =>
    ((plan.assign connected.toList)[place]?).map fun wave => s.beginWave none wave.nodeIds
  | .raw rendered => some (s.beginWave (some rendered) s.sessions.keys)
  | .move i move =>
    match s.waves[i]? with
    | none => none
    | some wave =>
      (waveTurn texts s wave move).map fun (t, next) => { t with waves := t.waves.set i next }
  | .single nodeId rendered =>
    let (version, s) := s.mint nodeId rendered
    some { s with singles := s.singles ++ [.minted nodeId rendered version] }
  | .singleMove i move =>
    match s.singles[i]? with
    | none => none
    | some single =>
      (singleTurn s single move).map fun (t, next) => { t with singles := t.singles.set i next }

/-- A move is a turn of a wave that has begun. -/
theorem step_move {texts : RenderTexts} {s t : Correlation} {i : Nat} {move : WaveMove}
    (stepped : step texts s (.move i move) = some t) :
    ∃ wave u next, s.waves[i]? = some wave ∧ waveTurn texts s wave move = some (u, next) ∧
      t = { u with waves := u.waves.set i next } := by
  simp only [step] at stepped
  cases under : s.waves[i]? with
  | none =>
    rw [under] at stepped
    cases stepped
  | some wave =>
    rw [under] at stepped
    obtain ⟨⟨u, next⟩, moved, rfl⟩ := Option.map_eq_some_iff.mp stepped
    exact ⟨wave, u, next, rfl, moved, rfl⟩

/-- A move of a single push is a turn of one that has begun. -/
theorem step_singleMove {texts : RenderTexts} {s t : Correlation} {i : Nat} {move : SingleMove}
    (stepped : step texts s (.singleMove i move) = some t) :
    ∃ single u next, s.singles[i]? = some single ∧ singleTurn s single move = some (u, next) ∧
      t = { u with singles := u.singles.set i next } := by
  simp only [step] at stepped
  cases under : s.singles[i]? with
  | none =>
    rw [under] at stepped
    cases stepped
  | some single =>
    rw [under] at stepped
    obtain ⟨⟨u, next⟩, moved, rfl⟩ := Option.map_eq_some_iff.mp stepped
    exact ⟨single, u, next, rfl, moved, rfl⟩

/-- The control plane after its start on a source: nobody is connected and nothing was pushed. -/
def init (applied : Rendered) (source : ResolvedRepo) (plan : WavePlan) : Correlation :=
  ⟨.fromSource applied source plan, ∅, 1, [], [], [], [], []⟩

/-! ### What is promised -/

/-- The push that waits in a session under a number. -/
def slot (s : Correlation) (nodeId : String) (pushId : Nat) : Option Pending :=
  s.sessions[nodeId]?.bind (·.pending[pushId]?)

/-- The step puts a snapshot on a node's stream. -/
def Action.Pushes : Action → Prop
  | .move _ (.push _) | .singleMove _ (.push _) => True
  | _ => False

/-- The node acknowledged the version it was pushed with the hash expected of it, and that version was minted for no
    other hash. -/
def AcknowledgedBy (s : Correlation) (wave : Wave) (nodeId : String) : Prop :=
  ∃ pushed ∈ wave.pushed, pushed.nodeId = nodeId ∧ (nodeId, pushed.hash) ∈ wave.expected ∧
    (nodeId, pushed.version, .acked pushed.hash) ∈ s.answers ∧
    ∀ hash, (nodeId, pushed.version, hash) ∈ s.mints ↔ hash = pushed.hash

/-- Every waiter is fired at most once, by an answer of its node for its version; a push leaves every waiter in its
    slot; and every node of a committed wave has acknowledged what it was pushed. -/
structure Correlated (texts : RenderTexts) (s : Correlation) : Prop where
  once : ∀ waiter ∈ s.waiters, waiter.sent.length ≤ 1
  answered : ∀ waiter ∈ s.waiters, ∀ result ∈ waiter.sent, (waiter.nodeId, waiter.version, result) ∈ s.answers
  undisturbed : ∀ action t, action.Pushes → step texts s action = some t → ∀ nodeId pushId pending,
    s.slot nodeId pushId = some pending → t.slot nodeId pushId = some pending
  committed : ∀ wave ∈ s.waves, ∀ hash nodeCount, wave.outcome = some (.committed hash nodeCount) →
    ∀ nodeId ∈ wave.nodeIds, s.AcknowledgedBy wave nodeId

/-! ### The slots -/

/-- A slot has a number that was taken, and holds a waiter of its own that was made for it and not fired. A waiter that
    was fired, was fired once, by an answer to its push. -/
structure Slots (s : Correlation) : Prop where
  numbered : ∀ nodeId pushId pending, s.slot nodeId pushId = some pending → pushId < s.nextPush
  holds : ∀ nodeId pushId pending, s.slot nodeId pushId = some pending →
    s.waiters[pending.waiter]? = some ⟨nodeId, pending.awaitedVersion, []⟩
  apart : ∀ nodeId pushId pending nodeId' pushId' pending', s.slot nodeId pushId = some pending →
    s.slot nodeId' pushId' = some pending' → pending.waiter = pending'.waiter → nodeId = nodeId' ∧ pushId = pushId'
  fired : ∀ waiter ∈ s.waiters, waiter.sent = [] ∨
    ∃ result, waiter.sent = [result] ∧ (waiter.nodeId, waiter.version, result) ∈ s.answers

/-- Fewer slots are in order when they were. -/
theorem Slots.drop {s t : Correlation} (slots : s.Slots) (fewer : ∀ nodeId pushId pending,
      t.slot nodeId pushId = some pending → s.slot nodeId pushId = some pending)
    (numbers : s.nextPush ≤ t.nextPush) (waiters : t.waiters = s.waiters) (answers : s.answers ⊆ t.answers) :
    t.Slots where
  numbered nodeId pushId pending held :=
    lt_of_lt_of_le (slots.numbered nodeId pushId pending (fewer nodeId pushId pending held)) numbers
  holds nodeId pushId pending held := by
    rw [waiters]
    exact slots.holds nodeId pushId pending (fewer nodeId pushId pending held)
  apart nodeId pushId pending nodeId' pushId' pending' held held' :=
    slots.apart nodeId pushId pending nodeId' pushId' pending' (fewer _ _ _ held) (fewer _ _ _ held')
  fired waiter made := by
    rw [waiters] at made
    rcases slots.fired waiter made with unsent | ⟨result, sent, answered⟩
    · exact .inl unsent
    · exact .inr ⟨result, sent, answers answered⟩

/-- A session is put in place of another. -/
theorem slot_insert {s t : Correlation} {nodeId : String} {session : Session}
    (put : t.sessions = s.sessions.insert nodeId session) (other : String) (pushId : Nat) :
    t.slot other pushId = if nodeId = other then session.pending[pushId]? else s.slot other pushId := by
  unfold slot
  rw [put, Std.TreeMap.getElem?_insert]
  by_cases same : nodeId = other
  · simp [same]
  · simp [same]

theorem slot_open (s : Correlation) (nodeId other : String) (pushId : Nat) (pending : Pending)
    (held : (s.insert nodeId).slot other pushId = some pending) : s.slot other pushId = some pending := by
  rw [slot_insert rfl] at held
  split at held
  · simp at held
  · exact held

theorem slot_close (s : Correlation) (nodeId other : String) (pushId : Nat) (pending : Pending)
    (held : (s.remove nodeId).slot other pushId = some pending) : s.slot other pushId = some pending := by
  unfold slot remove at held
  rw [Std.TreeMap.getElem?_erase] at held
  split at held
  · cases held
  · exact held

/-- A session without one of its pushes. -/
theorem slot_erase {s t : Correlation} {nodeId : String} {session : Session} {pushId : Nat}
    (there : s.sessions[nodeId]? = some session)
    (put : t.sessions = s.sessions.insert nodeId ⟨session.pending.erase pushId⟩) (other : String) (number : Nat) :
    t.slot other number = if nodeId = other ∧ pushId = number then none else s.slot other number := by
  rw [slot_insert put]
  by_cases same : nodeId = other
  · subst same
    rw [if_pos rfl, Std.TreeMap.getElem?_erase]
    by_cases number : pushId = number
    · simp [number]
    · simp [number, slot, there]
  · simp [same]

theorem slot_clear (s : Correlation) (nodeId : String) (pushId : Nat) (other : String) (number : Nat)
    (pending : Pending) (held : (s.clearPending nodeId pushId).slot other number = some pending) :
    s.slot other number = some pending := by
  unfold clearPending at held
  cases there : s.sessions[nodeId]? with
  | none =>
    rw [there] at held
    exact held
  | some session =>
    simp only [there] at held
    rw [slot_erase there rfl] at held
    split at held
    · cases held
    · exact held

/-! ### What is never lost -/

/-- The later state knows the mints, the answers and the waiters of the earlier one. -/
structure Extends (s t : Correlation) : Prop where
  mints : s.mints ⊆ t.mints
  answers : s.answers ⊆ t.answers
  waiters : ∀ (i : Nat) (waiter : Waiter), s.waiters[i]? = some waiter → ∃ later, t.waiters[i]? = some later ∧
    later.nodeId = waiter.nodeId ∧ later.version = waiter.version

theorem Extends.of_same {s t : Correlation} (mints : t.mints = s.mints) (answers : t.answers = s.answers)
    (waiters : t.waiters = s.waiters) : s.Extends t where
  mints := by rw [mints]; exact List.Subset.refl _
  answers := by rw [answers]; exact List.Subset.refl _
  waiters i waiter made := ⟨waiter, by rw [waiters, made], rfl, rfl⟩

theorem Extends.trans {s t u : Correlation} (first : s.Extends t) (second : t.Extends u) : s.Extends u where
  mints := List.Subset.trans first.mints second.mints
  answers := List.Subset.trans first.answers second.answers
  waiters i waiter made := by
    obtain ⟨later, kept, node, version⟩ := first.waiters i waiter made
    obtain ⟨last, keptToo, nodeToo, versionToo⟩ := second.waiters i later kept
    exact ⟨last, keptToo, nodeToo.trans node, versionToo.trans version⟩

/-! ### Answers -/

theorem fire_getElem? (waiters : List Waiter) (i j : Nat) (result : AckResult) :
    (fire waiters i result)[j]? =
      (waiters[j]?).map fun waiter => if i = j then { waiter with sent := waiter.sent ++ [result] } else waiter := by
  rw [fire, List.getElem?_modify]
  cases waiters[j]? with
  | none => rfl
  | some waiter =>
    by_cases same : i = j
    · simp [same]
    · simp [same]

/-- An answer is taken to one push that awaits it. -/
theorem deliverTo_slots {s : Correlation} (slots : s.Slots) {nodeId : String} {result : AckResult} {pushId : Nat}
    (answers : ∀ pending, s.slot nodeId pushId = some pending → (nodeId, pending.awaitedVersion, result) ∈ s.answers) :
    (deliverTo nodeId result s pushId).Slots := by
  unfold deliverTo
  cases there : s.sessions[nodeId]? with
  | none => exact slots
  | some session =>
    cases waits : session.pending[pushId]? with
    | none => simpa only [there, waits] using slots
    | some pending =>
      simp only [waits]
      have held : s.slot nodeId pushId = some pending := by simp [slot, there, waits]
      have made := slots.holds nodeId pushId pending held
      constructor
      · intro other number found waiting
        rw [slot_erase there rfl] at waiting
        split at waiting
        · cases waiting
        · exact slots.numbered other number found waiting
      · intro other number found waiting
        rw [slot_erase there rfl] at waiting
        split at waiting
        · cases waiting
        · rename_i different
          -- The waiter of another slot is another waiter, and stays as it is.
          have own : pending.waiter ≠ found.waiter := fun same =>
            different (slots.apart nodeId pushId pending other number found held waiting same)
          rw [fire_getElem?, slots.holds other number found waiting, Option.map_some, if_neg own]
      · intro other number found other' number' found' waiting waiting' same
        rw [slot_erase there rfl] at waiting waiting'
        split at waiting
        · cases waiting
        · split at waiting'
          · cases waiting'
          · exact slots.apart other number found other' number' found' waiting waiting' same
      · intro waiter inside
        obtain ⟨j, fired⟩ := List.mem_iff_getElem?.mp inside
        rw [fire_getElem?, Option.map_eq_some_iff] at fired
        obtain ⟨before, known, rfl⟩ := fired
        by_cases same : pending.waiter = j
        · -- The waiter that is fired had nothing sent to it.
          subst same
          rw [made, Option.some.injEq] at known
          subst known
          rw [if_pos rfl]
          exact .inr ⟨result, rfl, answers pending held⟩
        · rw [if_neg same]
          exact slots.fired before (List.mem_of_getElem? known)

theorem deliverTo_fewer {s : Correlation} {nodeId : String} {result : AckResult} {pushId : Nat} (other : String)
    (number : Nat) (pending : Pending) (held : (deliverTo nodeId result s pushId).slot other number = some pending) :
    s.slot other number = some pending := by
  unfold deliverTo at held
  cases there : s.sessions[nodeId]? with
  | none =>
    rw [there] at held
    exact held
  | some session =>
    cases waits : session.pending[pushId]? with
    | none =>
      simp only [there, waits] at held
      exact held
    | some found =>
      simp only [there, waits] at held
      rw [slot_erase there rfl] at held
      split at held
      · cases held
      · exact held

/-- What an answer that is delivered leaves alone. -/
structure Untouched (s t : Correlation) : Prop where
  fleet : t.fleet = s.fleet
  waves : t.waves = s.waves
  mints : t.mints = s.mints

theorem deliverTo_frame (s : Correlation) (nodeId : String) (result : AckResult) (pushId : Nat) :
    s.Untouched (deliverTo nodeId result s pushId) ∧ (deliverTo nodeId result s pushId).answers = s.answers ∧
      s.Extends (deliverTo nodeId result s pushId) := by
  unfold deliverTo
  cases s.sessions[nodeId]? with
  | none => exact ⟨⟨rfl, rfl, rfl⟩, rfl, .of_same rfl rfl rfl⟩
  | some session =>
    cases waits : session.pending[pushId]? with
    | none =>
      simp only [waits]
      exact ⟨⟨rfl, rfl, rfl⟩, trivial, .of_same rfl rfl rfl⟩
    | some pending =>
      simp only [waits]
      refine ⟨⟨rfl, rfl, rfl⟩, trivial, List.Subset.refl _, List.Subset.refl _, fun i waiter made => ?_⟩
      refine ⟨_, by rw [fire_getElem?, made, Option.map_some], ?_⟩
      split
      · exact ⟨rfl, rfl⟩
      · exact ⟨rfl, rfl⟩

/-- An answer is taken to one after another of the pushes that await it. -/
theorem foldl_deliverTo (nodeId : String) (result : AckResult) (pushIds : List Nat) {s : Correlation} (slots : s.Slots)
    (answers : ∀ pushId ∈ pushIds, ∀ pending, s.slot nodeId pushId = some pending →
      (nodeId, pending.awaitedVersion, result) ∈ s.answers) :
    (pushIds.foldl (deliverTo nodeId result) s).Slots ∧ s.Untouched (pushIds.foldl (deliverTo nodeId result) s) ∧
      s.Extends (pushIds.foldl (deliverTo nodeId result) s) := by
  induction pushIds generalizing s with
  | nil => exact ⟨slots, ⟨rfl, rfl, rfl⟩, .of_same rfl rfl rfl⟩
  | cons pushId rest ih =>
    obtain ⟨frame, same, extends_⟩ := deliverTo_frame s nodeId result pushId
    obtain ⟨kept, untouched, extended⟩ := ih (deliverTo_slots slots (answers pushId List.mem_cons_self)) (by
      intro other later pending held
      rw [same]
      exact answers other (List.mem_cons_of_mem _ later) pending (deliverTo_fewer nodeId other pending held))
    exact ⟨kept, ⟨untouched.fleet.trans frame.fleet, untouched.waves.trans frame.waves,
      untouched.mints.trans frame.mints⟩, extends_.trans extended⟩

theorem mem_matched {s : Correlation} {nodeId : String} {version pushId : Nat}
    (inside : pushId ∈ s.matched nodeId version) {pending : Pending} (held : s.slot nodeId pushId = some pending) :
    pending.awaitedVersion = version := by
  unfold matched at inside
  unfold slot at held
  cases there : s.sessions[nodeId]? with
  | none => simp [there] at inside
  | some session =>
    rw [there] at inside held
    obtain ⟨⟨number, found⟩, listed, rfl⟩ := List.mem_map.mp inside
    obtain ⟨entry, awaits⟩ := List.mem_filter.mp listed
    have known := Std.TreeMap.mem_toList_iff_getElem?_eq_some.mp entry
    rw [Option.bind_some, known, Option.some.injEq] at held
    rw [← held]
    simpa using awaits

theorem deliver_keeps {s : Correlation} (slots : s.Slots) (nodeId : String) (version : Nat) (answer : Answer) :
    (s.deliver nodeId version answer).Slots ∧ s.Untouched (s.deliver nodeId version answer) ∧
      s.Extends (s.deliver nodeId version answer) := by
  have heard : s.answers ⊆ s.answers ++ [(nodeId, version, answer.result)] := List.subset_append_left _ _
  obtain ⟨kept, untouched, extended⟩ := foldl_deliverTo nodeId answer.result
    (s.matched nodeId version) (s := { s with answers := s.answers ++ [(nodeId, version, answer.result)] })
    (slots.drop (fun _ _ _ held => held) (le_refl _) rfl heard) (by
      intro pushId inside pending held
      rw [mem_matched inside (show s.slot nodeId pushId = some pending from held)]
      exact List.mem_append_right _ List.mem_cons_self)
  refine ⟨kept, ⟨untouched.fleet, untouched.waves, untouched.mints⟩, Extends.trans ?_ extended⟩
  exact ⟨List.Subset.refl _, heard, fun i waiter made => ⟨waiter, made, rfl, rfl⟩⟩

/-! ### Pushes -/

/-- What a push does to the table: it takes a number, and leaves a waiter in a slot that was free, or in none. -/
inductive Placed (s t : Correlation) (nodeId : String) (version : Nat) (handle : PendingHandle) : Prop
  | refused (slots : ∀ other number, t.slot other number = s.slot other number) (none : handle = none)
      (waiters : t.waiters = s.waiters ∨ t.waiters = s.waiters ++ [⟨nodeId, version, []⟩])
  | placed (slots : ∀ other number, t.slot other number =
        if nodeId = other ∧ s.nextPush = number then some ⟨version, s.waiters.length⟩ else s.slot other number)
      (some : handle = some (s.nextPush, s.waiters.length))
      (waiters : t.waiters = s.waiters ++ [⟨nodeId, version, []⟩])

theorem Slots.free {s : Correlation} (slots : s.Slots) (nodeId : String) : s.slot nodeId s.nextPush = none := by
  cases held : s.slot nodeId s.nextPush with
  | none => rfl
  | some pending => exact absurd (slots.numbered nodeId s.nextPush pending held) (lt_irrefl _)

theorem pushAndAwait_placed {s : Correlation} (slots : s.Slots) (nodeId : String) (version : Nat) (sends : Bool) :
    Placed s (s.pushAndAwait nodeId version sends).2 nodeId version (s.pushAndAwait nodeId version sends).1 := by
  unfold pushAndAwait
  cases there : s.sessions[nodeId]? with
  | none => exact .refused (fun _ _ => rfl) rfl (.inl rfl)
  | some session =>
    cases sends with
    | true =>
      refine .placed (fun other number => ?_) rfl rfl
      rw [slot_insert rfl]
      by_cases same : nodeId = other
      · subst same
        rw [if_pos rfl, Std.TreeMap.getElem?_insert]
        by_cases number : s.nextPush = number
        · simp [number]
        · simp [number, slot, there]
      · simp [same]
    | false =>
      refine .refused (fun other number => ?_) rfl (.inr rfl)
      rw [slot_insert rfl]
      by_cases same : nodeId = other
      · subst same
        rw [if_pos rfl, Std.TreeMap.getElem?_erase]
        by_cases number : s.nextPush = number
        · subst number
          rw [slots.free]
          simp
        · simp [number, slot, there, Std.TreeMap.getElem?_insert]
      · simp [same]

/-- No push is put into a slot that holds another. -/
theorem Placed.undisturbed {s t : Correlation} {nodeId : String} {version : Nat} {handle : PendingHandle}
    (slots : s.Slots) (placed : Placed s t nodeId version handle) {other : String} {number : Nat} {pending : Pending}
    (held : s.slot other number = some pending) : t.slot other number = some pending := by
  cases placed with
  | refused same => rw [same, held]
  | placed new =>
    rw [new, if_neg, held]
    rintro ⟨rfl, rfl⟩
    rw [slots.free] at held
    cases held

theorem Placed.extends {s t : Correlation} {nodeId : String} {version : Nat} {handle : PendingHandle}
    (placed : Placed s t nodeId version handle) (mints : t.mints = s.mints) (answers : t.answers = s.answers) :
    s.Extends t := by
  have grown : t.waiters = s.waiters ∨ t.waiters = s.waiters ++ [⟨nodeId, version, []⟩] := by
    cases placed with
    | refused _ _ waiters => exact waiters
    | placed _ _ waiters => exact .inr waiters
  rcases grown with same | more
  · exact .of_same mints answers same
  · refine ⟨by rw [mints]; exact List.Subset.refl _, by rw [answers]; exact List.Subset.refl _, fun i waiter made => ?_⟩
    refine ⟨waiter, ?_, rfl, rfl⟩
    rw [more, List.getElem?_append_left (List.getElem?_eq_some_iff.mp made).1, made]

theorem pushAndAwait_frame (s : Correlation) (nodeId : String) (version : Nat) (sends : Bool) :
    s.Untouched (s.pushAndAwait nodeId version sends).2 ∧
      (s.pushAndAwait nodeId version sends).2.answers = s.answers ∧
      (s.pushAndAwait nodeId version sends).2.nextPush = s.nextPush + 1 := by
  unfold pushAndAwait
  cases s.sessions[nodeId]? with
  | none => exact ⟨⟨rfl, rfl, rfl⟩, rfl, rfl⟩
  | some session =>
    cases sends with
    | true => exact ⟨⟨rfl, rfl, rfl⟩, rfl, rfl⟩
    | false => exact ⟨⟨rfl, rfl, rfl⟩, rfl, rfl⟩

theorem fired_append {s t : Correlation} (slots : s.Slots) {nodeId : String} {version : Nat}
    (waiters : t.waiters = s.waiters ∨ t.waiters = s.waiters ++ [⟨nodeId, version, []⟩])
    (answers : t.answers = s.answers) : ∀ waiter ∈ t.waiters, waiter.sent = [] ∨
      ∃ result, waiter.sent = [result] ∧ (waiter.nodeId, waiter.version, result) ∈ t.answers := by
  intro waiter made
  rw [answers]
  rcases waiters with same | more
  · rw [same] at made
    exact slots.fired waiter made
  · rw [more] at made
    rcases List.mem_append.mp made with before | new
    · exact slots.fired waiter before
    · rw [List.mem_singleton.mp new]
      exact .inl rfl

theorem Placed.slots {s t : Correlation} {nodeId : String} {version : Nat} {handle : PendingHandle} (slots : s.Slots)
    (placed : Placed s t nodeId version handle) (answers : t.answers = s.answers)
    (numbers : t.nextPush = s.nextPush + 1) : t.Slots := by
  cases placed with
  | refused same _ waiters =>
    have kept : ∀ other number pending, t.slot other number = some pending →
        s.waiters[pending.waiter]? = some ⟨other, pending.awaitedVersion, []⟩ := fun other number pending held =>
      slots.holds other number pending (by rw [← same, held])
    refine ⟨fun other number pending held => ?_, fun other number pending held => ?_, ?_,
      fired_append slots waiters answers⟩
    · rw [same] at held
      have taken := slots.numbered other number pending held
      omega
    · have made := kept other number pending held
      rcases waiters with same | more
      · rw [same, made]
      · rw [more, List.getElem?_append_left (List.getElem?_eq_some_iff.mp made).1, made]
    · intro other number pending other' number' pending' held held' waiter
      rw [same] at held held'
      exact slots.apart other number pending other' number' pending' held held' waiter
  | placed new _ more =>
    have old : ∀ other number pending, s.slot other number = some pending → pending.waiter < s.waiters.length :=
      fun other number pending held => (List.getElem?_eq_some_iff.mp (slots.holds other number pending held)).1
    refine ⟨fun other number pending held => ?_, fun other number pending held => ?_, ?_,
      fired_append slots (.inr more) answers⟩
    · rw [new] at held
      split at held
      · rename_i own
        omega
      · have taken := slots.numbered other number pending held
        omega
    · rw [new] at held
      split at held
      · rename_i own
        obtain rfl := Option.some.inj held
        obtain ⟨rfl, -⟩ := own
        rw [more, List.getElem?_append_right (le_refl _), Nat.sub_self]
        rfl
      · rw [more, List.getElem?_append_left (old other number pending held), slots.holds other number pending held]
    · intro other number pending other' number' pending' held held' waiter
      rw [new] at held held'
      split at held
      · rename_i own
        obtain rfl := Option.some.inj held
        split at held'
        · rename_i own'
          exact ⟨own.1.symm.trans own'.1, own.2.symm.trans own'.2⟩
        · have before := old other' number' pending' held'
          dsimp only at waiter
          omega
      · split at held'
        · obtain rfl := Option.some.inj held'
          have before := old other number pending held
          dsimp only at waiter
          omega
        · exact slots.apart other number pending other' number' pending' held held' waiter

/-- The waiter that a push is left with was made for it. -/
theorem Placed.handle {s t : Correlation} {nodeId : String} {version : Nat} {handle : PendingHandle}
    (placed : Placed s t nodeId version handle) {number i : Nat} (given : handle = some (number, i)) :
    t.waiters[i]? = some ⟨nodeId, version, []⟩ := by
  cases placed with
  | refused _ none =>
    rw [none] at given
    cases given
  | placed _ some more =>
    rw [some, Option.some.injEq, Prod.mk.injEq] at given
    obtain ⟨-, rfl⟩ := given
    rw [more, List.getElem?_append_right (le_refl _), Nat.sub_self]
    rfl

/-! ### Versions -/

/-- The versions minted for a node are at most its last one, which was minted for the hash it was last pushed; none was
    minted for two hashes. -/
structure Minted (fleet : Fleet) (mints : List (String × Nat × String)) : Prop where
  bounded : ∀ nodeId version hash, (nodeId, version, hash) ∈ mints → version ≤ (fleet.versioning nodeId).lastVersion
  latest : ∀ nodeId hash, (nodeId, (fleet.versioning nodeId).lastVersion, hash) ∈ mints →
    (fleet.versioning nodeId).lastPushedHash = some hash
  unique : ∀ nodeId version hash hash', (nodeId, version, hash) ∈ mints → (nodeId, version, hash') ∈ mints →
    hash = hash'

theorem Minted.congr {fleet other : Fleet} {mints : List (String × Nat × String)} (minted : Minted fleet mints)
    (same : other.perNode = fleet.perNode) : Minted other mints := by
  have versions : ∀ nodeId, other.versioning nodeId = fleet.versioning nodeId := by
    intro nodeId
    rw [Fleet.versioning, same, Fleet.versioning]
  refine ⟨fun nodeId version hash found => ?_, fun nodeId hash found => ?_, minted.unique⟩
  · rw [versions]
    exact minted.bounded nodeId version hash found
  · rw [versions] at found ⊢
    exact minted.latest nodeId hash found

theorem versioning_nextVersionFor (fleet : Fleet) (nodeId hash other : String) :
    (fleet.nextVersionFor nodeId hash).2.versioning other =
      if nodeId = other then ⟨fleet.mintedVersion nodeId hash, some hash⟩ else fleet.versioning other := by
  unfold Fleet.nextVersionFor Fleet.versioning
  rw [Std.TreeMap.getElem?_insert]
  by_cases same : nodeId = other
  · simp [same]
  · simp [same]

/-- A version that is minted again is for the hash of the last push; any other is new. -/
theorem Minted.fresh {fleet : Fleet} {mints : List (String × Nat × String)} (minted : Minted fleet mints)
    (nodeId hash : String) {hash' : String} (found : (nodeId, fleet.mintedVersion nodeId hash, hash') ∈ mints) :
    hash = hash' := by
  unfold Fleet.mintedVersion at found
  by_cases again : (fleet.versioning nodeId).lastPushedHash = some hash
  · rw [if_pos again] at found
    have last := minted.latest nodeId hash' found
    rw [again, Option.some.injEq] at last
    exact last
  · rw [if_neg again] at found
    have bound := minted.bounded nodeId _ hash' found
    omega

theorem mintedVersion_le (fleet : Fleet) (nodeId hash : String) :
    (fleet.versioning nodeId).lastVersion ≤ fleet.mintedVersion nodeId hash := by
  unfold Fleet.mintedVersion
  dsimp only
  split
  · exact le_refl _
  · exact Nat.le_succ _

theorem Minted.mint {fleet : Fleet} {mints : List (String × Nat × String)} (minted : Minted fleet mints)
    (nodeId hash : String) : Minted (fleet.nextVersionFor nodeId hash).2
      (mints ++ [(nodeId, fleet.mintedVersion nodeId hash, hash)]) := by
  constructor
  · intro other version hash' found
    rw [versioning_nextVersionFor]
    rcases List.mem_append.mp found with before | new
    · have bound := minted.bounded other version hash' before
      split
      · rename_i same
        subst same
        exact le_trans bound (mintedVersion_le fleet nodeId hash)
      · exact bound
    · obtain ⟨rfl, rfl, rfl⟩ : other = nodeId ∧ version = _ ∧ hash' = hash := by simpa using new
      rw [if_pos rfl]
  · intro other hash' found
    rw [versioning_nextVersionFor] at found ⊢
    by_cases same : nodeId = other
    · subst same
      rw [if_pos rfl] at found ⊢
      rcases List.mem_append.mp found with before | new
      · rw [minted.fresh nodeId hash before]
      · have own : hash' = hash := by simpa using new
        rw [own]
    · rw [if_neg same] at found ⊢
      rcases List.mem_append.mp found with before | new
      · exact minted.latest other hash' before
      · exact absurd (Prod.mk.inj (List.mem_singleton.mp new)).1.symm same
  · intro other version first second one two
    rcases List.mem_append.mp one with before | new
    · rcases List.mem_append.mp two with beforeToo | newToo
      · exact minted.unique other version first second before beforeToo
      · obtain ⟨rfl, rfl, rfl⟩ : other = nodeId ∧ version = _ ∧ second = hash := by simpa using newToo
        exact (minted.fresh other second before).symm
    · obtain ⟨rfl, rfl, rfl⟩ : other = nodeId ∧ version = _ ∧ first = hash := by simpa using new
      rcases List.mem_append.mp two with beforeToo | newToo
      · exact minted.fresh other first beforeToo
      · have own : second = first := by simpa using newToo
        exact own.symm

/-! ### Waves -/

/-- The result is for the push, and if it is an answer, the node gave it for the version of the push. -/
def Heard (answers : List (String × Nat × AckResult)) (entry : String × AckResult) (pushed : Pushed) : Prop :=
  entry.1 = pushed.nodeId ∧ (entry.2 = .silent ∨ (pushed.nodeId, pushed.version, entry.2) ∈ answers)

/-- A wave pushes to its nodes in their order, and takes their answers in that order. -/
structure Wave.Sound (s : Correlation) (wave : Wave) : Prop where
  nodes : wave.pushed.map (·.nodeId) ++ wave.remaining = wave.nodeIds
  distinct : wave.nodeIds.Nodup
  raw : ∀ rendered, wave.raw = some rendered →
    (∀ other, wave.rendered = some other → other = rendered) ∧
    (∀ other version, wave.minted = some (other, version) → other = rendered) ∧
    ∀ pushed ∈ wave.pushed, pushed.hash = rendered.renderHash
  minted : ∀ nodeId remaining rendered version, wave.remaining = nodeId :: remaining →
    wave.minted = some (rendered, version) → (nodeId, version, rendered.renderHash) ∈ s.mints
  carried : ∀ pushed ∈ wave.pushed, (pushed.nodeId, pushed.version, pushed.hash) ∈ s.mints
  handles : ∀ pushed ∈ wave.pushed, ∀ number i, pushed.handle = some (number, i) → ∃ waiter,
    s.waiters[i]? = some waiter ∧ waiter.nodeId = pushed.nodeId ∧ waiter.version = pushed.version
  heard : List.Forall₂ (Heard s.answers) wave.results (wave.pushed.take wave.results.length)
  committed : ∀ hash nodeCount, wave.outcome = some (.committed hash nodeCount) → wave.remaining = [] ∧
    ∀ pushed ∈ wave.pushed, (pushed.nodeId, pushed.hash) ∈ wave.expected ∧
      (pushed.nodeId, pushed.version, .acked pushed.hash) ∈ s.answers

/-- A wave stays sound while others move. -/
theorem Wave.Sound.mono {s t : Correlation} {wave : Wave} (sound : wave.Sound s) (grown : s.Extends t) :
    wave.Sound t where
  nodes := sound.nodes
  distinct := sound.distinct
  raw := sound.raw
  minted nodeId remaining rendered version next given :=
    grown.mints (sound.minted nodeId remaining rendered version next given)
  carried pushed sent := grown.mints (sound.carried pushed sent)
  handles pushed sent number i given := by
    obtain ⟨waiter, made, node, version⟩ := sound.handles pushed sent number i given
    obtain ⟨later, kept, nodeToo, versionToo⟩ := grown.waiters i waiter made
    exact ⟨later, kept, nodeToo.trans node, versionToo.trans version⟩
  heard := sound.heard.imp fun _ _ heard => ⟨heard.1, heard.2.imp_right fun found => grown.answers found⟩
  committed hash nodeCount outcome := by
    obtain ⟨complete, acked⟩ := sound.committed hash nodeCount outcome
    exact ⟨complete, fun pushed sent => ⟨(acked pushed sent).1, grown.answers (acked pushed sent).2⟩⟩

theorem received_heard {s : Correlation} (slots : s.Slots) {i : Nat} {waiter : Waiter} {result : AckResult}
    (made : s.waiters[i]? = some waiter) (received : s.received i = some result) :
    (waiter.nodeId, waiter.version, result) ∈ s.answers := by
  unfold Correlation.received at received
  rw [made, Option.bind_some] at received
  rcases slots.fired waiter (List.mem_of_getElem? made) with unsent | ⟨only, sent, answered⟩
  · rw [unsent] at received
    cases received
  · rw [sent, List.head?_cons, Option.some.injEq] at received
    rw [← received]
    exact answered

theorem Wave.awaits_some {wave : Wave} {pushed : Pushed} (awaits : wave.awaits = some pushed) :
    wave.remaining = [] ∧ wave.pushed[wave.results.length]? = some pushed := by
  unfold Wave.awaits at awaits
  split at awaits
  · rename_i none
    exact ⟨List.isEmpty_iff.mp none, awaits⟩
  · cases awaits

/-- The wave takes the answer to the push that comes next. -/
theorem Wave.Sound.answered {s : Correlation} {wave : Wave} (sound : wave.Sound s) {pushed : Pushed}
    (awaits : wave.awaits = some pushed) {result : AckResult}
    (heard : result = .silent ∨ (pushed.nodeId, pushed.version, result) ∈ s.answers) :
    (wave.answered pushed.nodeId result).Sound s := by
  obtain ⟨-, next⟩ := Wave.awaits_some awaits
  refine ⟨sound.nodes, sound.distinct, sound.raw, sound.minted, sound.carried, sound.handles, ?_, ?_⟩
  · have taken : wave.pushed.take (wave.results ++ [(pushed.nodeId, result)]).length =
        wave.pushed.take wave.results.length ++ [pushed] := by
      rw [List.length_append, List.length_singleton, List.take_add_one, next]
      rfl
    change List.Forall₂ (Heard s.answers) (wave.results ++ [(pushed.nodeId, result)])
      (wave.pushed.take (wave.results ++ [(pushed.nodeId, result)]).length)
    rw [taken]
    exact List.rel_append sound.heard (.cons ⟨rfl, heard⟩ .nil)
  · intro hash nodeCount outcome
    obtain ⟨complete, acked⟩ := sound.committed hash nodeCount outcome
    refine ⟨complete, fun other sent => ⟨?_, (acked other sent).2⟩⟩
    have expects := (acked other sent).1
    unfold Wave.expected at expects ⊢
    cases raw : wave.raw with
    | none =>
      rw [raw] at expects
      simpa only [Wave.answered, raw] using expects
    | some rendered =>
      rw [raw] at expects
      simp only [Wave.answered, raw, List.map_append]
      exact List.mem_append_left _ expects

theorem Wave.Sound.expected {s : Correlation} {wave : Wave} (sound : wave.Sound s) {pushed : Pushed}
    (sent : pushed ∈ wave.pushed) {result : AckResult} (answered : (pushed.nodeId, result) ∈ wave.results) :
    (pushed.nodeId, pushed.hash) ∈ wave.expected ∧
      ∀ entry ∈ wave.expected, entry.1 = pushed.nodeId → entry.2 = pushed.hash := by
  unfold Wave.expected
  cases raw : wave.raw with
  | none =>
    have nodup : (wave.pushed.map (·.nodeId)).Nodup := by
      refine List.Nodup.sublist ?_ sound.distinct
      rw [← sound.nodes]
      exact List.sublist_append_left _ _
    refine ⟨List.mem_map.mpr ⟨pushed, sent, rfl⟩, fun entry listed same => ?_⟩
    obtain ⟨other, sentToo, rfl⟩ := List.mem_map.mp listed
    rw [List.inj_on_of_nodup_map nodup sentToo sent same]
  | some rendered =>
    have hash := (sound.raw rendered raw).2.2 pushed sent
    refine ⟨List.mem_map.mpr ⟨_, answered, by rw [hash]⟩, fun entry listed _ => ?_⟩
    obtain ⟨other, -, rfl⟩ := List.mem_map.mp listed
    rw [hash]

/-- In a wave that is committed, every node acknowledged its push. -/
theorem Wave.Sound.acknowledged {s : Correlation} {wave : Wave} (sound : wave.Sound s)
    (complete : wave.results.length = wave.pushed.length) {hash : String} {nodeCount : Nat}
    (committed : (s.fleet.concludeWaveMulti wave.outcomeHash wave.expected wave.version wave.results).1 =
      .committed hash nodeCount) :
    ∀ pushed ∈ wave.pushed, (pushed.nodeId, pushed.hash) ∈ wave.expected ∧
      (pushed.nodeId, pushed.version, .acked pushed.hash) ∈ s.answers := by
  intro pushed sent
  have heard := sound.heard
  rw [complete, List.take_length] at heard
  obtain ⟨⟨nodeId, result⟩, listed, rfl, answered⟩ := Fallible.exists_of_forall₂ heard pushed sent
  obtain ⟨expects, only⟩ := sound.expected sent listed
  have acked := Fleet.concludeWaveMulti_acked_wanted committed listed expects only
  dsimp only at answered
  rw [acked] at answered
  rcases answered with silent | found
  · cases silent
  · exact ⟨expects, found⟩

/-! ### Steps -/

/-- What one task's step keeps: the slots, the versions and the other waves, and what was known. -/
structure Kept (s t : Correlation) : Prop where
  slots : t.Slots
  minted : Minted t.fleet t.mints
  waves : t.waves = s.waves
  grown : s.Extends t

theorem Kept.refl {s : Correlation} (slots : s.Slots) (minted : Minted s.fleet s.mints) : Kept s s :=
  ⟨slots, minted, rfl, .of_same rfl rfl rfl⟩

/-- A step that changes the fleet, and no version in it. -/
theorem Kept.fleet {s : Correlation} (slots : s.Slots) (minted : Minted s.fleet s.mints) {fleet : Fleet}
    (same : fleet.perNode = s.fleet.perNode) : Kept s { s with fleet } where
  slots := slots.drop (fun _ _ _ held => held) (le_refl _) rfl (List.Subset.refl _)
  minted := minted.congr same
  waves := rfl
  grown := .of_same rfl rfl rfl

theorem mint_kept {s : Correlation} (slots : s.Slots) (minted : Minted s.fleet s.mints) (nodeId : String)
    (rendered : Rendered) : Kept s (s.mint nodeId rendered).2 where
  slots := slots.drop (fun _ _ _ held => held) (le_refl _) rfl (List.Subset.refl _)
  minted := minted.mint nodeId rendered.renderHash
  waves := rfl
  grown := ⟨List.subset_append_left _ _, List.Subset.refl _, fun _ waiter made => ⟨waiter, made, rfl, rfl⟩⟩

theorem push_kept {s : Correlation} (slots : s.Slots) (minted : Minted s.fleet s.mints) (nodeId : String)
    (version : Nat) (sends : Bool) : Kept s (s.pushAndAwait nodeId version sends).2 := by
  obtain ⟨frame, answers, numbers⟩ := pushAndAwait_frame s nodeId version sends
  have placed := pushAndAwait_placed slots nodeId version sends
  refine ⟨placed.slots slots answers numbers, ?_, frame.waves, placed.extends frame.mints answers⟩
  rw [frame.fleet, frame.mints]
  exact minted

theorem clear_kept {s : Correlation} (slots : s.Slots) (minted : Minted s.fleet s.mints) (nodeId : String)
    (pushId : Nat) : Kept s (s.clearPending nodeId pushId) := by
  have fewer := slot_clear s nodeId pushId
  unfold clearPending at fewer ⊢
  cases there : s.sessions[nodeId]? with
  | none => exact .refl slots minted
  | some session =>
    rw [there] at fewer
    exact ⟨slots.drop fewer (le_refl _) rfl (List.Subset.refl _), minted, rfl, .of_same rfl rfl rfl⟩

/-- The wave puts the push of its next node on the node's stream. -/
theorem Wave.Sound.push {s t : Correlation} {wave : Wave} (sound : wave.Sound s) (grown : s.Extends t) {nodeId : String}
    {remaining : List String} (next : wave.remaining = nodeId :: remaining) {rendered : Rendered} {version : Nat}
    (given : wave.minted = some (rendered, version)) {handle : PendingHandle}
    (placed : Placed s t nodeId version handle) :
    Wave.Sound t { wave with
      remaining, minted := none, pushed := wave.pushed ++ [⟨nodeId, rendered.renderHash, version, handle⟩] } := by
  have later := sound.mono grown
  constructor
  · rw [List.map_append, List.append_assoc]
    exact (congrArg _ next.symm).trans sound.nodes
  · exact sound.distinct
  · intro raw is_raw
    obtain ⟨computed, minted, hashes⟩ := sound.raw raw is_raw
    refine ⟨computed, fun _ _ none => (by cases none), fun pushed sent => ?_⟩
    rcases List.mem_append.mp sent with before | new
    · exact hashes pushed before
    · rw [List.mem_singleton.mp new, minted rendered version given]
  · intro _ _ _ _ _ none
    cases none
  · intro pushed sent
    rcases List.mem_append.mp sent with before | new
    · exact later.carried pushed before
    · rw [List.mem_singleton.mp new]
      exact later.minted nodeId remaining rendered version next given
  · intro pushed sent number i named
    rcases List.mem_append.mp sent with before | new
    · exact later.handles pushed before number i named
    · rw [List.mem_singleton.mp new] at named ⊢
      exact ⟨_, placed.handle named, rfl, rfl⟩
  · have short : wave.results.length ≤ wave.pushed.length := by
      have lengths := sound.heard.length_eq
      rw [List.length_take] at lengths
      omega
    dsimp only
    rw [List.take_append_of_le_length short]
    exact later.heard
  · intro hash nodeCount outcome
    have complete := (sound.committed hash nodeCount outcome).1
    rw [next] at complete
    cases complete

/-- The wave computes the render for its next node; a raw wave has its own. -/
theorem Wave.Sound.render {s : Correlation} {wave : Wave} (sound : wave.Sound s) {rendered : Rendered}
    (own : ∀ raw, wave.raw = some raw → rendered = raw) : Wave.Sound s { wave with rendered := some rendered } := by
  refine ⟨sound.nodes, sound.distinct, fun raw is_raw => ⟨?_, (sound.raw raw is_raw).2⟩, sound.minted,
    sound.carried, sound.handles, sound.heard, sound.committed⟩
  intro other same
  rw [← Option.some.inj same]
  exact own raw is_raw

/-- The wave gets a version of the fleet for the push to its next node. -/
theorem Wave.Sound.mint {s t : Correlation} {wave : Wave} (sound : wave.Sound s) (grown : s.Extends t)
    {nodeId : String} {remaining : List String} (first : wave.remaining = nodeId :: remaining) {rendered : Rendered}
    (computed : wave.rendered = some rendered) {version : Nat}
    (minted : (nodeId, version, rendered.renderHash) ∈ t.mints) :
    Wave.Sound t
      { wave with rendered := none, minted := some (rendered, version), version := max wave.version version } := by
  have later := sound.mono grown
  refine ⟨later.nodes, later.distinct, fun raw is_raw => ?_, ?_, later.carried, later.handles, later.heard,
    later.committed⟩
  · obtain ⟨own, -, hashes⟩ := sound.raw raw is_raw
    refine ⟨fun _ none => (by cases none), fun other given same => ?_, hashes⟩
    obtain ⟨rfl, -⟩ := Prod.mk.inj (Option.some.inj same)
    exact own rendered computed
  · intro other rest found given next same
    obtain ⟨rfl, rfl⟩ := Prod.mk.inj (Option.some.inj same)
    obtain ⟨rfl, -⟩ := List.cons.inj (first.symm.trans next)
    exact minted

/-- The wave is concluded once every push is answered. -/
theorem Wave.Sound.conclude {s t : Correlation} {wave : Wave} (sound : wave.Sound s) (grown : s.Extends t)
    (complete : wave.remaining = []) (answered : wave.results.length = wave.pushed.length) :
    Wave.Sound t
      { wave with
        outcome := some (s.fleet.concludeWaveMulti wave.outcomeHash wave.expected wave.version wave.results).1 } := by
  have later := sound.mono grown
  refine ⟨later.nodes, later.distinct, later.raw, later.minted, later.carried, later.handles, later.heard, ?_⟩
  intro hash nodeCount outcome
  refine ⟨complete, fun pushed sent => ?_⟩
  obtain ⟨expects, acked⟩ := sound.acknowledged answered (Option.some.inj outcome) pushed sent
  exact ⟨expects, grown.answers acked⟩

/-- What one step of a wave can be: how it leaves the control plane, and the wave. -/
inductive TurnTaken (texts : RenderTexts) (s : Correlation) (wave : Wave) : WaveMove → Correlation → Wave → Prop
  | raw (labels : Option Labels) {rendered : Rendered} (isRaw : wave.raw = some rendered) :
    TurnTaken texts s wave (.render labels) s { wave with rendered := some rendered }
  | applied (notRaw : wave.raw = none) :
    TurnTaken texts s wave (.render none) s { wave with rendered := some s.fleet.applied }
  | desired (labels : Labels) (notRaw : wave.raw = none) :
    TurnTaken texts s wave (.render (some labels)) { s with fleet := (s.fleet.desiredFor texts labels).2 }
      { wave with rendered := some (s.fleet.desiredFor texts labels).1 }
  | mint {nodeId : String} {remaining : List String} {rendered : Rendered} (first : wave.remaining = nodeId :: remaining)
    (computed : wave.rendered = some rendered) :
    TurnTaken texts s wave .mint (s.mint nodeId rendered).2
      { wave with
        rendered := none, minted := some (rendered, (s.mint nodeId rendered).1)
        version := max wave.version (s.mint nodeId rendered).1 }
  | push (sends : Bool) {nodeId : String} {remaining : List String} {rendered : Rendered} {version : Nat}
    (first : wave.remaining = nodeId :: remaining) (given : wave.minted = some (rendered, version)) :
    TurnTaken texts s wave (.push sends) (s.pushAndAwait nodeId version sends).2
      { wave with
        remaining, minted := none
        pushed := wave.pushed ++
          [⟨nodeId, rendered.renderHash, version, (s.pushAndAwait nodeId version sends).1⟩] }
  | silent {pushed : Pushed} (awaits : wave.awaits = some pushed) :
    TurnTaken texts s wave .take s (wave.answered pushed.nodeId .silent)
  | take {pushed : Pushed} {number waiter : Nat} {result : AckResult} (awaits : wave.awaits = some pushed)
    (handle : pushed.handle = some (number, waiter)) (received : s.received waiter = some result) :
    TurnTaken texts s wave .take s (wave.answered pushed.nodeId result)
  | giveUp : TurnTaken texts s wave .giveUp s { wave with clearing := true }
  | clear {nodeId hash : String} {version pushId waiter : Nat}
    (awaits : wave.awaits = some ⟨nodeId, hash, version, some (pushId, waiter)⟩) :
    TurnTaken texts s wave .clear (s.clearPending nodeId pushId) (wave.answered nodeId .silent)
  | conclude (running : wave.outcome = none) (complete : wave.remaining = [])
    (answered : wave.results.length = wave.pushed.length) :
    TurnTaken texts s wave .conclude
      { s with fleet := (s.fleet.concludeWaveMulti wave.outcomeHash wave.expected wave.version wave.results).2 }
      { wave with
        outcome := some (s.fleet.concludeWaveMulti wave.outcomeHash wave.expected wave.version wave.results).1 }

theorem waveTurn_taken {texts : RenderTexts} {s t : Correlation} {wave next : Wave} {move : WaveMove}
    (moved : waveTurn texts s wave move = some (t, next)) : TurnTaken texts s wave move t next := by
  cases move with
  | render labels =>
    simp only [waveTurn] at moved
    split at moved
    · split at moved
      · rename_i isRaw
        obtain ⟨rfl, rfl⟩ := Prod.mk.inj (Option.some.inj moved)
        exact .raw _ isRaw
      · rename_i notRaw
        obtain ⟨rfl, rfl⟩ := Prod.mk.inj (Option.some.inj moved)
        exact .applied notRaw
      · rename_i labels notRaw
        obtain ⟨rfl, rfl⟩ := Prod.mk.inj (Option.some.inj moved)
        exact .desired labels notRaw
    · cases moved
  | mint =>
    simp only [waveTurn] at moved
    split at moved
    · rename_i first computed
      obtain ⟨rfl, rfl⟩ := Prod.mk.inj (Option.some.inj moved)
      exact .mint first computed
    · cases moved
  | push sends =>
    simp only [waveTurn] at moved
    split at moved
    · rename_i first given
      obtain ⟨rfl, rfl⟩ := Prod.mk.inj (Option.some.inj moved)
      exact .push sends first given
    · cases moved
  | take =>
    simp only [waveTurn] at moved
    split at moved
    · cases moved
    · split at moved
      · cases moved
      · rename_i awaits
        split at moved
        · obtain ⟨rfl, rfl⟩ := Prod.mk.inj (Option.some.inj moved)
          exact .silent awaits
        · rename_i handle
          obtain ⟨result, received, same⟩ := Option.map_eq_some_iff.mp moved
          obtain ⟨rfl, rfl⟩ := Prod.mk.inj same
          exact .take awaits handle received
  | giveUp =>
    simp only [waveTurn] at moved
    split at moved
    · split at moved
      · obtain ⟨rfl, rfl⟩ := Prod.mk.inj (Option.some.inj moved)
        exact .giveUp
      · cases moved
    · cases moved
  | clear =>
    simp only [waveTurn] at moved
    split at moved
    · rename_i awaits
      split at moved
      · obtain ⟨rfl, rfl⟩ := Prod.mk.inj (Option.some.inj moved)
        exact .clear awaits
      · cases moved
    · cases moved
  | conclude =>
    simp only [waveTurn] at moved
    split at moved
    · rename_i done
      simp only [Bool.and_eq_true, List.isEmpty_iff, beq_iff_eq, Option.isNone_iff_eq_none] at done
      obtain ⟨rfl, rfl⟩ := Prod.mk.inj (Option.some.inj moved)
      exact .conclude done.1.1 done.1.2 done.2
    · cases moved

/-- The raw render of a wave is the one that it pushes. -/
theorem Wave.Sound.renderNotRaw {s : Correlation} {wave : Wave} (sound : wave.Sound s) (notRaw : wave.raw = none)
    (rendered : Rendered) : Wave.Sound s { wave with rendered := some rendered } := by
  refine sound.render fun other same => ?_
  rw [notRaw] at same
  cases same

theorem waveTurn_keeps {texts : RenderTexts} {s t : Correlation} {wave next : Wave} {move : WaveMove} (slots : s.Slots)
    (minted : Minted s.fleet s.mints) (sound : wave.Sound s) (moved : waveTurn texts s wave move = some (t, next)) :
    Kept s t ∧ next.Sound t := by
  cases waveTurn_taken moved with
  | raw labels isRaw =>
    refine ⟨.refl slots minted, sound.render fun other same => ?_⟩
    exact Option.some.inj (isRaw.symm.trans same)
  | applied notRaw => exact ⟨.refl slots minted, sound.renderNotRaw notRaw _⟩
  | desired labels notRaw =>
    have kept : Kept s { s with fleet := (s.fleet.desiredFor texts labels).2 } :=
      .fleet slots minted (Fleet.desiredFor_versions texts s.fleet labels).1
    exact ⟨kept, (sound.mono kept.grown).renderNotRaw notRaw _⟩
  | @mint nodeId _ rendered first computed =>
    have kept := mint_kept slots minted nodeId rendered
    exact ⟨kept, sound.mint kept.grown first computed (List.mem_append_right _ List.mem_cons_self)⟩
  | @push sends nodeId _ _ version first given =>
    have kept := push_kept slots minted nodeId version sends
    exact ⟨kept, sound.push kept.grown first given (pushAndAwait_placed slots nodeId version sends)⟩
  | silent awaits => exact ⟨.refl slots minted, sound.answered awaits (.inl rfl)⟩
  | @take pushed number waiter result awaits handle received =>
    have sent := List.mem_of_getElem? (Wave.awaits_some awaits).2
    obtain ⟨made, known, node, version⟩ := sound.handles pushed sent number waiter handle
    refine ⟨.refl slots minted, sound.answered awaits (.inr ?_)⟩
    rw [← node, ← version]
    exact received_heard slots known received
  | giveUp =>
    exact ⟨.refl slots minted, sound.nodes, sound.distinct, sound.raw, sound.minted, sound.carried, sound.handles,
      sound.heard, sound.committed⟩
  | @clear nodeId _ _ pushId _ awaits =>
    have kept := clear_kept slots minted nodeId pushId
    exact ⟨kept, (sound.mono kept.grown).answered awaits (.inl rfl)⟩
  | conclude _ complete answered =>
    have kept : Kept s { s with fleet :=
        (s.fleet.concludeWaveMulti wave.outcomeHash wave.expected wave.version wave.results).2 } :=
      .fleet slots minted (s.fleet.concludeWaveMulti_perNode _ _ _ _)
    exact ⟨kept, sound.conclude kept.grown complete answered⟩

structure Sound (s : Correlation) : Prop where
  slots : s.Slots
  minted : Minted s.fleet s.mints
  waves : ∀ wave ∈ s.waves, wave.Sound s

/-- The table after a step of a task, whatever becomes of the tasks. -/
theorem Kept.withTasks {s t : Correlation} (kept : Kept s t) (waves : List Wave) (singles : List Single) :
    ({ t with waves, singles } : Correlation).Slots ∧ Minted t.fleet t.mints ∧
      s.Extends { t with waves, singles } :=
  ⟨kept.slots.drop (fun _ _ _ held => held) (le_refl _) rfl (List.Subset.refl _), kept.minted,
    kept.grown.trans (.of_same rfl rfl rfl)⟩

theorem Sound.kept {s t : Correlation} (sound : s.Sound) (kept : Kept s t) : t.Sound where
  slots := kept.slots
  minted := kept.minted
  waves wave under := by
    rw [kept.waves] at under
    exact (sound.waves wave under).mono kept.grown

theorem Sound.singles {s t : Correlation} (sound : s.Sound) (kept : Kept s t) (singles : List Single) :
    Sound { t with singles } := by
  obtain ⟨slots, minted, grown⟩ := kept.withTasks t.waves singles
  refine ⟨slots, minted, fun wave under => ?_⟩
  rw [show ({ t with singles } : Correlation).waves = s.waves from kept.waves] at under
  exact (sound.waves wave under).mono grown

theorem Sound.beginWave {s : Correlation} (sound : s.Sound) (raw : Option Rendered) {nodeIds : List String}
    (distinct : nodeIds.Nodup) : (s.beginWave raw nodeIds).Sound := by
  obtain ⟨slots, minted, grown⟩ :=
    (Kept.refl sound.slots sound.minted).withTasks (s.beginWave raw nodeIds).waves s.singles
  refine ⟨slots, minted, fun wave under => ?_⟩
  rcases List.mem_append.mp under with before | new
  · exact (sound.waves wave before).mono grown
  · rw [List.mem_singleton.mp new]
    exact ⟨rfl, distinct, fun _ _ => ⟨fun _ none => (by cases none), fun _ _ none => (by cases none), by simp⟩,
      fun _ _ _ _ _ none => (by cases none), by simp, by simp, .nil, fun _ _ none => (by cases none)⟩

theorem singleTurn_kept {s t : Correlation} {single next : Single} {move : SingleMove} (slots : s.Slots)
    (minted : Minted s.fleet s.mints) (moved : singleTurn s single move = some (t, next)) : Kept s t := by
  unfold singleTurn at moved
  split at moved
  · rename_i nodeId _ version sends
    obtain ⟨rfl, rfl⟩ := Prod.mk.inj (Option.some.inj moved)
    exact push_kept slots minted nodeId version sends
  · obtain ⟨rfl, rfl⟩ := Prod.mk.inj (Option.some.inj moved)
    exact .refl slots minted
  · rename_i nodeId pushId _
    obtain ⟨rfl, rfl⟩ := Prod.mk.inj (Option.some.inj moved)
    exact clear_kept slots minted nodeId pushId
  · cases moved

theorem sound_step (texts : RenderTexts) : Runs.Preserves (step texts) Sound := by
  intro s action t sound stepped
  have slots := sound.slots
  have minted := sound.minted
  cases action with
  | open_ nodeId =>
    obtain rfl := Option.some.inj stepped
    exact sound.kept ⟨slots.drop (slot_open s nodeId) (le_refl _) rfl (List.Subset.refl _), minted, rfl,
      .of_same rfl rfl rfl⟩
  | close nodeId =>
    obtain rfl := Option.some.inj stepped
    exact sound.kept ⟨slots.drop (slot_close s nodeId) (le_refl _) rfl (List.Subset.refl _), minted, rfl,
      .of_same rfl rfl rfl⟩
  | answer nodeId version answer =>
    obtain rfl := Option.some.inj stepped
    obtain ⟨kept, untouched, grown⟩ := deliver_keeps slots nodeId version answer
    refine sound.kept ⟨kept, ?_, untouched.waves, grown⟩
    rw [untouched.fleet, untouched.mints]
    exact minted
  | apply next resolved plan =>
    obtain rfl := Option.some.inj stepped
    exact sound.kept (.fleet slots minted rfl)
  | wave plan connected place =>
    obtain ⟨wave, placed, rfl⟩ := Option.map_eq_some_iff.mp stepped
    refine sound.beginWave none (WavePlan.assign_nodup ?_ (List.mem_of_getElem? placed))
    rw [Std.TreeMap.map_fst_toList_eq_keys]
    exact Std.TreeMap.nodup_keys
  | raw rendered =>
    obtain rfl := Option.some.inj stepped
    exact sound.beginWave (some rendered) Std.TreeMap.nodup_keys
  | move i move =>
    obtain ⟨wave, u, next, under, moved, rfl⟩ := step_move stepped
    obtain ⟨kept, own⟩ := waveTurn_keeps slots minted (sound.waves wave (List.mem_of_getElem? under)) moved
    obtain ⟨slots, minted, grown⟩ := kept.withTasks (u.waves.set i next) u.singles
    refine ⟨slots, minted, fun other among => ?_⟩
    rcases List.mem_or_eq_of_mem_set among with before | rfl
    · rw [kept.waves] at before
      exact (sound.waves other before).mono grown
    · exact own.mono (.of_same rfl rfl rfl)
  | single nodeId rendered =>
    obtain rfl := Option.some.inj stepped
    exact sound.singles (mint_kept slots minted nodeId rendered) _
  | singleMove i move =>
    obtain ⟨single, u, next, under, moved, rfl⟩ := step_singleMove stepped
    exact sound.singles (singleTurn_kept slots minted moved) _

theorem sound_init (applied : Rendered) (source : ResolvedRepo) (plan : WavePlan) :
    (init applied source plan).Sound := by
  have empty : ∀ nodeId pushId, (init applied source plan).slot nodeId pushId = none := fun _ _ => rfl
  refine ⟨⟨?_, ?_, ?_, by simp [init]⟩, ⟨by simp [init], by simp [init], by simp [init]⟩, by simp [init]⟩
  · intro nodeId pushId pending held
    rw [empty] at held
    cases held
  · intro nodeId pushId pending held
    rw [empty] at held
    cases held
  · intro nodeId pushId pending _ _ _ held
    rw [empty] at held
    cases held

/-- A step that pushes leaves every waiter in its slot. -/
theorem Sound.undisturbed {s t : Correlation} (sound : s.Sound) {texts : RenderTexts} {action : Action}
    (pushes : action.Pushes) (stepped : step texts s action = some t) {nodeId : String} {pushId : Nat}
    {pending : Pending} (held : s.slot nodeId pushId = some pending) : t.slot nodeId pushId = some pending := by
  cases action with
  | move i move =>
    cases move with
    | push sends =>
      obtain ⟨wave, u, next, under, moved, rfl⟩ := step_move stepped
      cases waveTurn_taken moved with
      | @push _ node _ _ version =>
        exact (pushAndAwait_placed sound.slots node version sends).undisturbed sound.slots held
    | _ => cases pushes
  | singleMove i move =>
    cases move with
    | push sends =>
      obtain ⟨single, u, next, under, moved, rfl⟩ := step_singleMove stepped
      unfold singleTurn at moved
      split at moved
      · rename_i node _ version taken same
        obtain ⟨rfl, -⟩ := Prod.mk.inj (Option.some.inj moved)
        exact (pushAndAwait_placed sound.slots node version taken).undisturbed sound.slots held
      · obtain ⟨rfl, -⟩ := Prod.mk.inj (Option.some.inj moved)
        exact held
      · rename_i same
        cases same
      · cases moved
    | _ => cases pushes
  | _ => cases pushes

/-- Every node of a committed wave has acknowledged what it was pushed. -/
theorem Sound.acknowledgedBy {s : Correlation} (sound : s.Sound) {wave : Wave} (under : wave ∈ s.waves) {hash : String}
    {nodeCount : Nat} (outcome : wave.outcome = some (.committed hash nodeCount)) :
    ∀ nodeId ∈ wave.nodeIds, s.AcknowledgedBy wave nodeId := by
  intro nodeId target
  have own := sound.waves wave under
  obtain ⟨complete, acked⟩ := own.committed hash nodeCount outcome
  rw [← own.nodes, complete, List.append_nil] at target
  obtain ⟨pushed, sent, rfl⟩ := List.mem_map.mp target
  obtain ⟨expects, answered⟩ := acked pushed sent
  have carried := own.carried pushed sent
  refine ⟨pushed, sent, rfl, expects, answered, fun other => ⟨fun minted => ?_, fun same => same ▸ carried⟩⟩
  exact sound.minted.unique pushed.nodeId pushed.version other pushed.hash minted carried

/-- In every state that pushes, answers, timeouts, disconnects and returns can lead to, in any order, each waiter was
    fired at most once and by an answer of its node for its version; no push takes the slot of another; and a wave that
    is committed was acknowledged by each of its nodes, at the version that was minted for the hash expected of it and
    for no other. -/
theorem correlated (texts : RenderTexts) (applied : Rendered) (source : ResolvedRepo) (plan : WavePlan)
    (actions : List Action) (s : Correlation)
    (executed : Runs.exec (step texts) (init applied source plan) actions = some s) : Correlated texts s := by
  have sound := Runs.exec_preserves (sound_step texts) (sound_init applied source plan) executed
  constructor
  · intro waiter made
    rcases sound.slots.fired waiter made with unsent | ⟨result, sent, -⟩
    · simp [unsent]
    · simp [sent]
  · intro waiter made result fired
    rcases sound.slots.fired waiter made with unsent | ⟨only, sent, answered⟩
    · rw [unsent] at fired
      cases fired
    · rw [sent, List.mem_singleton] at fired
      rw [fired]
      exact answered
  · intro action t pushes stepped nodeId pushId pending held
    exact sound.undisturbed pushes stepped held
  · intro wave under hash nodeCount outcome
    exact sound.acknowledgedBy under outcome

def firstRender : Rendered := ⟨[], "h1", "c1"⟩

/-- A wave and a heal push the same render to one of two nodes, which answers once for both and then once more. -/
def healedDuringWave : List Action :=
  [.open_ "n1", .open_ "n2", .wave .single (((∅ : Std.TreeMap String Labels).insert "n1" ∅).insert "n2" ∅) 0,
    .move 0 (.render none), .move 0 .mint, .single "n1" firstRender, .singleMove 0 (.push true), .move 0 (.push true),
    .move 0 (.render none), .move 0 .mint, .move 0 (.push true), .answer "n1" 1 (.ack "h1"), .singleMove 0 .settle,
    .answer "n1" 1 (.ack "h1"), .move 0 .take, .answer "n2" 1 (.ack "h1"), .move 0 .take, .move 0 .conclude]

theorem healed_during_wave_correlated :
    ∃ s, Runs.exec (step ⟨fun _ _ => .error "no config", id⟩) (init firstRender ⟨[], "c1"⟩ .single) healedDuringWave =
        some s ∧
      s.waves.map (·.outcome) = [some (.committed "h1" 2)] ∧
      s.waiters.map (·.sent) = [[.acked "h1"], [.acked "h1"], [.acked "h1"]] ∧
      Correlated ⟨fun _ _ => .error "no config", id⟩ s := by
  have run : (Runs.exec (step ⟨fun _ _ => .error "no config", id⟩) (init firstRender ⟨[], "c1"⟩ .single)
      healedDuringWave).map (fun s => (s.waves.map (·.outcome), s.waiters.map (·.sent))) =
        some ([some (.committed "h1" 2)], [[.acked "h1"], [.acked "h1"], [.acked "h1"]]) := by
    decide
  obtain ⟨s, executed, same⟩ := Option.map_eq_some_iff.mp run
  obtain ⟨outcomes, sent⟩ := Prod.mk.inj same
  exact ⟨s, executed, outcomes, sent, correlated _ _ _ _ healedDuringWave s executed⟩

end Correlation

end SmallGateway
