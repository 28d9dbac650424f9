import SmallGateway.FleetBudgets
import SmallGateway.Lib.Runs
import SmallGateway.RuntimeStore

/-!
The streams of the nodes at the control plane (`gatewayctl/src/server.rs`: `Sessions`, `session`,
`ingest_usage`). A stream that is admitted marks its node connected and puts its sender into the session table;
when it ends, its loop marks the node gone, takes the node out of the table and drops the node's spend from the
budget ledger. These are five separate steps, other streams take theirs in between, and all three tables are
keyed by the node alone. They agree with the node's newest stream throughout a run exactly when no stream touches
a table that a newer one of its node is using (`tables_agree_iff_harmless`).

A stream is named by its place in the order in which the streams were admitted.
-/

namespace SmallGateway

namespace FleetBudgets

/-- The ledger holds a figure of the node. -/
def Keeps (budgets : FleetBudgets) (nodeId : String) : Prop :=
  ∃ (id : CapId) (entry : CapState), budgets.caps[id]? = some entry ∧ nodeId ∈ entry.perNodeSpend

theorem new_keeps (nodeId : String) : ¬ FleetBudgets.new.Keeps nodeId := by
  rintro ⟨id, entry, stored, -⟩
  simp [FleetBudgets.new] at stored

theorem reportSpend_keeps (budgets : FleetBudgets) (nodeId other : String) (id : CapId) (cap spent : Nat) :
    (budgets.reportSpend nodeId id cap spent).2.Keeps other ↔ other = nodeId ∨ budgets.Keeps other := by
  obtain ⟨entry, stored, -, spend⟩ := budgets.reportSpend_entry nodeId id cap spent
  constructor
  · rintro ⟨key, found, lookup, inside⟩
    by_cases same : key = id
    · subst same
      rw [stored, Option.some.injEq] at lookup
      rw [← lookup, spend, Std.TreeMap.mem_insert, Std.LawfulEqCmp.compare_eq_iff_eq] at inside
      rcases inside with rfl | before
      · exact .inl rfl
      · cases known : budgets.caps[key]? with
        | none => simp [capState, known, CapState.default] at before
        | some state => exact .inr ⟨key, state, known, by simpa [capState, known] using before⟩
    · rw [reportSpend_other budgets nodeId cap spent same] at lookup
      exact .inr ⟨key, found, lookup, inside⟩
  · rintro (rfl | ⟨key, found, lookup, inside⟩)
    · exact ⟨id, entry, stored, by simp [spend]⟩
    · by_cases same : key = id
      · subst same
        refine ⟨key, entry, stored, ?_⟩
        rw [spend, Std.TreeMap.mem_insert]
        exact .inr (by simpa [capState, lookup] using inside)
      · exact ⟨key, found, by rw [reportSpend_other budgets nodeId cap spent same, lookup], inside⟩

theorem forgetNode_keeps (budgets : FleetBudgets) (nodeId other : String) :
    (budgets.forgetNode nodeId).Keeps other ↔ other ≠ nodeId ∧ budgets.Keeps other := by
  unfold Keeps forgetNode
  simp only [Std.TreeMap.getElem?_map, Option.map_eq_some_iff]
  constructor
  · rintro ⟨id, entry, ⟨known, stored, rfl⟩, inside⟩
    rw [Std.TreeMap.mem_erase] at inside
    refine ⟨?_, id, known, stored, inside.2⟩
    rintro rfl
    simp at inside
  · rintro ⟨different, id, known, stored, inside⟩
    refine ⟨id, _, ⟨known, stored, rfl⟩, ?_⟩
    rw [Std.TreeMap.mem_erase]
    exact ⟨by simpa using different.symm, inside⟩

end FleetBudgets

/-- How far a stream has got: its node is marked connected, its sender is in the table, its loop has ended and
    marked the node gone, it has taken the node out of the table, and it has dropped the node's spend. -/
inductive StreamPhase
  | connected
  | registered
  | disconnected
  | removed
  | closed
  deriving DecidableEq

/-- A stream of a node, and whether usage has been ingested from it. -/
structure NodeStream where
  node : String
  phase : StreamPhase
  reported : Bool
  deriving DecidableEq

/-- One figure of a usage report. -/
structure SpenderUsage where
  id : CapId
  capTokens : Nat
  tokens : Nat

/-- What a node sends once its stream is open. -/
inductive ClientMessage
  | ack (fleetVersion : Nat) (renderHash : String)
  | nack (fleetVersion : Nat) (reason : String)
  | status (observedRenderHash : String)
  | usage (spenders : List SpenderUsage)

def ClientMessage.reports : ClientMessage → Bool
  | .usage spenders => !spenders.isEmpty
  | _ => false

/-- The table of live senders: which stream's sender a node is reached by. -/
abbrev Sessions := Std.TreeMap String Nat

structure Server where
  streams : List NodeStream
  sessions : Sessions
  store : RuntimeStore
  budgets : FleetBudgets

namespace Server

def new : Server := ⟨[], ∅, .new, .new⟩

inductive Action
  /-- A stream of the node is admitted, and the node marked connected. -/
  | connect (node : String) (labels : Labels)
  | insert (i : Nat)
  | receive (i : Nat) (message : ClientMessage)
  | disconnect (i : Nat)
  | remove (i : Nat)
  | forget (i : Nat)

def ingestUsage (budgets : FleetBudgets) (nodeId : String) (spenders : List SpenderUsage) : FleetBudgets :=
  spenders.foldl (fun budgets s => (budgets.reportSpend nodeId s.id s.capTokens s.tokens).2) budgets

/-- The inbound loop's handling of a message. -/
def handle (s : Server) (nodeId : String) : ClientMessage → Server
  | .ack version hash => { s with store := s.store.recordAck nodeId version hash }
  | .nack version reason => { s with store := s.store.recordNack nodeId version reason }
  | .status hash => { s with store := s.store.recordStatus nodeId hash }
  | .usage spenders => { s with budgets := ingestUsage s.budgets nodeId spenders }

/-- The stream at a place takes its next step, when it is in the phase before. -/
def advance (s : Server) (i : Nat) (phase : StreamPhase) (next : NodeStream → NodeStream)
    (change : String → Server → Server) : Option Server :=
  match s.streams[i]? with
  | none => none
  | some stream =>
    if stream.phase = phase then some (change stream.node { s with streams := s.streams.set i (next stream) })
    else none

def step (s : Server) : Action → Option Server
  | .connect node labels =>
    some { s with streams := s.streams ++ [⟨node, .connected, false⟩], store := s.store.connect node labels }
  | .insert i =>
    s.advance i .connected (fun stream => { stream with phase := .registered }) fun node t =>
      { t with sessions := t.sessions.insert node i }
  | .receive i message =>
    s.advance i .registered
      (fun stream => { stream with reported := stream.reported || message.reports })
      fun node t => t.handle node message
  | .disconnect i =>
    s.advance i .registered (fun stream => { stream with phase := .disconnected }) fun node t =>
      { t with store := t.store.disconnect node }
  | .remove i =>
    s.advance i .disconnected (fun stream => { stream with phase := .removed }) fun node t =>
      { t with sessions := t.sessions.erase node }
  | .forget i =>
    s.advance i .removed (fun stream => { stream with phase := .closed }) fun node t =>
      { t with budgets := t.budgets.forgetNode node }

/-! ### Agreement -/

/-- No later stream belongs to the node of this one. -/
def Newest (s : Server) (i : Nat) (stream : NodeStream) : Prop :=
  s.streams[i]? = some stream ∧ ∀ other ∈ s.streams.drop (i + 1), other.node ≠ stream.node

instance (s : Server) (i : Nat) (stream : NodeStream) : Decidable (s.Newest i stream) :=
  inferInstanceAs (Decidable (_ ∧ _))

/-- The tables agree with a stream: the node is marked connected from the stream's admission to its end, the
    table has the stream's sender from its entry to its removal and none after it, and the ledger keeps what the
    node reported until the stream is closed, and nothing then. -/
structure AgreesWith (s : Server) (i : Nat) (stream : NodeStream) : Prop where
  connected : s.store.isConnected stream.node = true ↔ stream.phase = .connected ∨ stream.phase = .registered
  entered : stream.phase = .registered ∨ stream.phase = .disconnected → s.sessions[stream.node]? = some i
  removed : stream.phase = .removed ∨ stream.phase = .closed → s.sessions[stream.node]? = none
  reclaimed : stream.phase = .closed → ¬ s.budgets.Keeps stream.node
  kept : stream.reported = true → stream.phase ≠ .closed → s.budgets.Keeps stream.node

/-- Every node's tables agree with its newest stream, and a node without streams is in no table. -/
structure Agreement (s : Server) : Prop where
  newest : ∀ i stream, s.Newest i stream → s.AgreesWith i stream
  unknown : ∀ node, (∀ stream ∈ s.streams, stream.node ≠ node) →
    s.store.isConnected node = false ∧ s.sessions[node]? = none ∧ ¬ s.budgets.Keeps node

/-- The newest stream of the node of a stream is that stream itself, or one that is safe. -/
def SafeUnderNewest (s : Server) (i : Nat) (safe : NodeStream → Prop) : Prop :=
  ∀ stream ∈ s.streams[i]?, ∀ j < s.streams.length, ∀ newest ∈ s.streams[j]?,
    s.Newest j newest → newest.node = stream.node → j ≠ i → safe newest

/-- A stream does not touch a table that the newest stream of its node is using: it enters its sender only while
    the newest one has not, it is cleaned up only where the newest one is not marked, entered or kept, and it
    reports usage only while the newest one is not closed. -/
def Harmless (s : Server) : Action → Prop
  | .connect _ _ => True
  | .insert i => s.SafeUnderNewest i fun newest => newest.phase = .connected
  | .receive i message => message.reports = true → s.SafeUnderNewest i fun newest => newest.phase ≠ .closed
  | .disconnect i =>
    s.SafeUnderNewest i fun newest => newest.phase ≠ .connected ∧ newest.phase ≠ .registered
  | .remove i => s.SafeUnderNewest i fun newest => newest.phase ≠ .registered ∧ newest.phase ≠ .disconnected
  | .forget i => s.SafeUnderNewest i fun newest => newest.phase = .closed ∨ newest.reported = false

instance (s : Server) (i : Nat) (safe : NodeStream → Prop) [DecidablePred safe] :
    Decidable (s.SafeUnderNewest i safe) := by
  unfold SafeUnderNewest
  infer_instance

instance : ∀ (s : Server) (action : Action), Decidable (s.Harmless action)
  | _, .connect _ _ => inferInstanceAs (Decidable True)
  | _, .insert _ => inferInstanceAs (Decidable (SafeUnderNewest _ _ _))
  | _, .receive _ _ => inferInstanceAs (Decidable (_ → SafeUnderNewest _ _ _))
  | _, .disconnect _ => inferInstanceAs (Decidable (SafeUnderNewest _ _ _))
  | _, .remove _ => inferInstanceAs (Decidable (SafeUnderNewest _ _ _))
  | _, .forget _ => inferInstanceAs (Decidable (SafeUnderNewest _ _ _))

theorem agreement_new : Server.new.Agreement where
  newest := by
    rintro i stream ⟨found, -⟩
    simp [new] at found
  unknown := by
    intro node _
    exact ⟨by simp [new, RuntimeStore.new, RuntimeStore.isConnected], by simp [new],
      FleetBudgets.new_keeps node⟩

theorem SafeUnderNewest.spec {s : Server} {i j : Nat} {safe : NodeStream → Prop} {stream newest : NodeStream}
    (safeUnder : s.SafeUnderNewest i safe) (found : s.streams[i]? = some stream) (isNewest : s.Newest j newest)
    (same : newest.node = stream.node) (different : j ≠ i) : safe newest := by
  have bound := (List.getElem?_eq_some_iff.mp isNewest.1).1
  exact safeUnder stream found j bound newest isNewest.1 isNewest same different

/-- A step of one stream leaves the newest streams what they were, up to that step. -/
theorem newest_set {s : Server} {i j : Nat} {stream next other : NodeStream} {streams : List NodeStream}
    (found : s.streams[i]? = some stream) (sameNode : next.node = stream.node)
    (stepped : streams = s.streams.set i next) (present : streams[j]? = some other)
    (last : ∀ later ∈ streams.drop (j + 1), later.node ≠ other.node) :
    ∃ before, s.Newest j before ∧ before.node = other.node ∧
      ((j = i ∧ before = stream ∧ other = next) ∨ (j ≠ i ∧ before = other)) := by
  obtain ⟨bound, -⟩ := List.getElem?_eq_some_iff.mp found
  have lastBefore : ∀ node, (∀ later ∈ streams.drop (j + 1), later.node ≠ node) →
      ∀ later ∈ s.streams.drop (j + 1), later.node ≠ node := by
    intro node untouched later inside
    obtain ⟨k, position⟩ := List.mem_iff_getElem?.mp inside
    rw [List.getElem?_drop] at position
    by_cases atI : j + 1 + k = i
    · rw [atI, found, Option.some.injEq] at position
      subst position
      have moved : next ∈ streams.drop (j + 1) := by
        refine List.mem_iff_getElem?.mpr ⟨k, ?_⟩
        rw [List.getElem?_drop, stepped, atI, List.getElem?_set_self bound]
      exact sameNode ▸ untouched next moved
    · refine untouched later (List.mem_iff_getElem?.mpr ⟨k, ?_⟩)
      rw [List.getElem?_drop, stepped, List.getElem?_set_ne (Ne.symm atI), position]
  by_cases same : j = i
  · subst same
    rw [stepped, List.getElem?_set_self bound, Option.some.injEq] at present
    subst present
    exact ⟨stream, ⟨found, lastBefore _ (sameNode ▸ last)⟩, sameNode.symm, .inl ⟨rfl, rfl, rfl⟩⟩
  · rw [stepped, List.getElem?_set_ne (Ne.symm same)] at present
    exact ⟨other, ⟨present, lastBefore _ last⟩, rfl, .inr ⟨same, rfl⟩⟩

/-- A stream takes a step that concerns no other node: what is left to show is that the tables agree with the
    newest stream of its node, be it that stream or another. -/
theorem Agreement.advanced {s t : Server} (agreement : s.Agreement) {i : Nat} {stream next : NodeStream}
    (found : s.streams[i]? = some stream) (streams : t.streams = s.streams.set i next)
    (sameNode : next.node = stream.node)
    (frame : ∀ node, node ≠ stream.node → t.store.isConnected node = s.store.isConnected node ∧
      t.sessions[node]? = s.sessions[node]? ∧ (t.budgets.Keeps node ↔ s.budgets.Keeps node))
    (own : s.Newest i stream → s.AgreesWith i stream → t.AgreesWith i next)
    (under : ∀ j newest, s.Newest j newest → newest.node = stream.node → j ≠ i → s.AgreesWith j newest →
      t.AgreesWith j newest) : t.Agreement := by
  refine ⟨?_, ?_⟩
  · rintro j other ⟨present, last⟩
    obtain ⟨before, newest, node, ⟨rfl, rfl, rfl⟩ | ⟨different, rfl⟩⟩ :=
      newest_set found sameNode streams present last
    · exact own newest (agreement.newest _ _ newest)
    · by_cases same : before.node = stream.node
      · exact under j before newest same different (agreement.newest j before newest)
      · obtain ⟨connected, session, kept⟩ := frame before.node same
        have agrees := agreement.newest j before newest
        exact ⟨connected ▸ agrees.connected, session ▸ agrees.entered, session ▸ agrees.removed,
          fun closed => kept.not.mpr (agrees.reclaimed closed),
          fun reported running => kept.mpr (agrees.kept reported running)⟩
  · intro node unknown
    have bound := (List.getElem?_eq_some_iff.mp found).1
    have inside : next ∈ t.streams :=
      List.mem_of_getElem? (by rw [streams, List.getElem?_set_self bound])
    have notStream : node ≠ stream.node := fun same => unknown next inside (sameNode.trans same.symm)
    have unknownBefore : ∀ other ∈ s.streams, other.node ≠ node := by
      intro other present
      obtain ⟨j, position⟩ := List.mem_iff_getElem?.mp present
      by_cases same : j = i
      · subst same
        rw [found, Option.some.injEq] at position
        exact position ▸ notStream.symm
      · have stays : t.streams[j]? = some other := by
          rw [streams, List.getElem?_set_ne (Ne.symm same), position]
        exact unknown other (List.mem_of_getElem? stays)
    obtain ⟨connected, session, kept⟩ := frame node notStream
    have before := agreement.unknown node unknownBefore
    exact ⟨connected ▸ before.1, session ▸ before.2.1, kept.not.mpr before.2.2⟩

theorem Agreement.admitted {s : Server} (agreement : s.Agreement) (node : String) (labels : Labels) :
    Agreement { s with
      streams := s.streams ++ [⟨node, .connected, false⟩], store := s.store.connect node labels } := by
  have frame : ∀ other, other ≠ node →
      (s.store.connect node labels).isConnected other = s.store.isConnected other := by
    intro other different
    have unequal : (other == node) = false := by simpa using different
    rw [RuntimeStore.connect_isConnected, unequal, Bool.false_or]
  refine ⟨?_, ?_⟩
  · rintro i stream ⟨found, last⟩
    rcases Nat.lt_or_ge i s.streams.length with before | after
    · rw [List.getElem?_append_left before] at found
      rw [List.drop_append_of_le_length (by omega)] at last
      have different : stream.node ≠ node :=
        (last _ (List.mem_append_right _ List.mem_cons_self)).symm
      have newest : s.Newest i stream :=
        ⟨found, fun other inside => last other (List.mem_append_left _ inside)⟩
      have agrees := agreement.newest i stream newest
      exact ⟨(frame stream.node different) ▸ agrees.connected, agrees.entered, agrees.removed, agrees.reclaimed,
        agrees.kept⟩
    · rw [List.getElem?_append_right after] at found
      have isNew : stream = ⟨node, .connected, false⟩ := by
        simpa using List.mem_of_getElem? found
      subst isNew
      have connected : (s.store.connect node labels).isConnected node = true := by
        simp [RuntimeStore.connect_isConnected]
      exact ⟨by simp [connected], by simp, by simp, by simp, by simp⟩
  · intro other unknown
    have different : other ≠ node := by
      rintro rfl
      exact unknown _ (List.mem_append_right _ List.mem_cons_self) rfl
    have before := agreement.unknown other fun stream inside =>
      unknown stream (List.mem_append_left _ inside)
    exact ⟨(frame other different).trans before.1, before.2⟩

theorem ingestUsage_keeps (budgets : FleetBudgets) (nodeId other : String) (spenders : List SpenderUsage) :
    (ingestUsage budgets nodeId spenders).Keeps other ↔
      (other = nodeId ∧ spenders ≠ []) ∨ budgets.Keeps other := by
  unfold ingestUsage
  induction spenders generalizing budgets with
  | nil => simp
  | cons first rest ih =>
    rw [List.foldl_cons, ih, FleetBudgets.reportSpend_keeps]
    constructor
    · rintro (⟨same, -⟩ | same | before)
      · exact .inl ⟨same, List.cons_ne_nil _ _⟩
      · exact .inl ⟨same, List.cons_ne_nil _ _⟩
      · exact .inr before
    · rintro (⟨same, -⟩ | before)
      · exact .inr (.inl same)
      · exact .inr (.inr before)

/-- A message leaves the sender table and every connection alone, and the ledger gains at most its node. -/
theorem handle_spec (s : Server) (nodeId : String) (message : ClientMessage) :
    (s.handle nodeId message).streams = s.streams ∧ (s.handle nodeId message).sessions = s.sessions ∧
      (∀ other, (s.handle nodeId message).store.isConnected other = s.store.isConnected other) ∧
      ∀ other, (s.handle nodeId message).budgets.Keeps other ↔
        (other = nodeId ∧ message.reports = true) ∨ s.budgets.Keeps other := by
  cases message with
  | ack version hash =>
    refine ⟨rfl, rfl, fun other => ?_, fun other => by simp [handle, ClientMessage.reports]⟩
    exact RuntimeStore.update_isConnected _ _ _ fun _ => rfl
  | nack version reason =>
    refine ⟨rfl, rfl, fun other => ?_, fun other => by simp [handle, ClientMessage.reports]⟩
    exact RuntimeStore.update_isConnected _ _ _ fun _ => rfl
  | status hash =>
    refine ⟨rfl, rfl, fun other => ?_, fun other => by simp [handle, ClientMessage.reports]⟩
    exact RuntimeStore.update_isConnected _ _ _ fun _ => rfl
  | usage spenders =>
    refine ⟨rfl, rfl, fun _ => rfl, fun other => ?_⟩
    simp only [handle, ingestUsage_keeps]
    cases spenders <;> simp [ClientMessage.reports]

theorem advance_spec {s t : Server} {i : Nat} {phase : StreamPhase} {next : NodeStream → NodeStream}
    {change : String → Server → Server} (advances : s.advance i phase next change = some t) :
    ∃ stream, s.streams[i]? = some stream ∧ stream.phase = phase ∧
      t = change stream.node { s with streams := s.streams.set i (next stream) } := by
  unfold advance at advances
  split at advances
  · cases advances
  · rename_i stream found
    split at advances
    · rename_i atPhase
      cases advances
      exact ⟨stream, found, atPhase, rfl⟩
    · cases advances

section

variable {s t : Server} {i : Nat}

theorem Agreement.inserted (agreement : s.Agreement)
    (harmless : s.Harmless (.insert i)) (stepped : s.step (.insert i) = some t) : t.Agreement := by
  simp only [step] at stepped
  obtain ⟨stream, found, atPhase, rfl⟩ := advance_spec stepped
  refine agreement.advanced found rfl rfl ?_ ?_ ?_
  · intro node different
    exact ⟨rfl, by simp [Std.TreeMap.getElem?_insert, different.symm], Iff.rfl⟩
  · intro _ agrees
    exact ⟨by simpa [atPhase] using agrees.connected, by simp, by simp, by simp,
      fun reported _ => agrees.kept reported (by simp [atPhase])⟩
  · intro j newest isNewest same different agrees
    have opening := harmless.spec found isNewest same different
    exact ⟨agrees.connected, by simp [opening], by simp [opening], agrees.reclaimed, agrees.kept⟩

theorem Agreement.received {message : ClientMessage} (agreement : s.Agreement)
    (harmless : s.Harmless (.receive i message)) (stepped : s.step (.receive i message) = some t) : t.Agreement := by
  simp only [step] at stepped
  obtain ⟨stream, found, atPhase, rfl⟩ := advance_spec stepped
  obtain ⟨streams, sessions, connected, keeps⟩ := handle_spec
    { s with streams := s.streams.set i { stream with reported := stream.reported || message.reports } }
    stream.node message
  refine agreement.advanced found streams rfl ?_ ?_ ?_
  · intro node different
    refine ⟨connected node, by rw [sessions], ?_⟩
    rw [keeps]
    simp [different]
  · intro _ agrees
    refine ⟨?_, ?_, ?_, by simp [atPhase], ?_⟩
    · rw [connected]
      exact agrees.connected
    · rw [sessions]
      exact agrees.entered
    · rw [sessions]
      exact agrees.removed
    · intro reported running
      rw [keeps]
      rcases Bool.or_eq_true _ _ ▸ reported with already | reports
      · exact .inr (agrees.kept already running)
      · exact .inl ⟨rfl, reports⟩
  · intro j newest isNewest same different agrees
    refine ⟨?_, ?_, ?_, ?_, ?_⟩
    · rw [connected]
      exact agrees.connected
    · rw [sessions]
      exact agrees.entered
    · rw [sessions]
      exact agrees.removed
    · intro closed
      rw [keeps]
      rintro (⟨-, reports⟩ | before)
      · exact (harmless reports).spec found isNewest same different closed
      · exact agrees.reclaimed closed before
    · intro reported running
      rw [keeps]
      exact .inr (agrees.kept reported running)

theorem Agreement.disconnected (agreement : s.Agreement)
    (harmless : s.Harmless (.disconnect i)) (stepped : s.step (.disconnect i) = some t) : t.Agreement := by
  simp only [step] at stepped
  obtain ⟨stream, found, atPhase, rfl⟩ := advance_spec stepped
  refine agreement.advanced found rfl rfl ?_ ?_ ?_
  · intro node different
    refine ⟨?_, rfl, Iff.rfl⟩
    rw [RuntimeStore.disconnect_isConnected]
    simp [different]
  · intro _ agrees
    exact ⟨by simp [RuntimeStore.disconnect_isConnected], fun _ => agrees.entered (.inl atPhase), by simp,
      by simp, fun reported _ => agrees.kept reported (by simp [atPhase])⟩
  · intro j newest isNewest same different agrees
    obtain ⟨notConnected, notRegistered⟩ := harmless.spec found isNewest same different
    exact ⟨by simp [RuntimeStore.disconnect_isConnected, same, notConnected, notRegistered], agrees.entered,
      agrees.removed, agrees.reclaimed, agrees.kept⟩

theorem Agreement.senderRemoved (agreement : s.Agreement)
    (harmless : s.Harmless (.remove i)) (stepped : s.step (.remove i) = some t) : t.Agreement := by
  simp only [step] at stepped
  obtain ⟨stream, found, atPhase, rfl⟩ := advance_spec stepped
  refine agreement.advanced found rfl rfl ?_ ?_ ?_
  · intro node different
    exact ⟨rfl, by simp [Std.TreeMap.getElem?_erase, different.symm], Iff.rfl⟩
  · intro _ agrees
    exact ⟨by simpa [atPhase] using agrees.connected, by simp, by simp, by simp,
      fun reported _ => agrees.kept reported (by simp [atPhase])⟩
  · intro j newest isNewest same different agrees
    obtain ⟨notRegistered, notDisconnected⟩ := harmless.spec found isNewest same different
    exact ⟨agrees.connected, by simp [notRegistered, notDisconnected], by simp [same], agrees.reclaimed,
      agrees.kept⟩

theorem Agreement.forgotten (agreement : s.Agreement)
    (harmless : s.Harmless (.forget i)) (stepped : s.step (.forget i) = some t) : t.Agreement := by
  simp only [step] at stepped
  obtain ⟨stream, found, atPhase, rfl⟩ := advance_spec stepped
  refine agreement.advanced found rfl rfl ?_ ?_ ?_
  · intro node different
    refine ⟨rfl, rfl, ?_⟩
    rw [FleetBudgets.forgetNode_keeps]
    simp [different]
  · intro _ agrees
    exact ⟨by simpa [atPhase] using agrees.connected, by simp, fun _ => agrees.removed (.inl atPhase),
      by simp [FleetBudgets.forgetNode_keeps], by simp⟩
  · intro j newest isNewest same different agrees
    have unused := harmless.spec found isNewest same different
    refine ⟨agrees.connected, agrees.entered, agrees.removed, ?_, ?_⟩
    · intro _
      simp [FleetBudgets.forgetNode_keeps, same]
    · intro reported running
      rcases unused with closed | unreported
      · exact absurd closed running
      · simp [reported] at unreported

end

theorem agreement_step : Runs.PreservesWhen step Harmless Agreement := by
  intro s action t agreement harmless stepped
  cases action with
  | connect node labels =>
    cases stepped
    exact agreement.admitted node labels
  | insert i => exact agreement.inserted harmless stepped
  | receive i message => exact agreement.received harmless stepped
  | disconnect i => exact agreement.disconnected harmless stepped
  | remove i => exact agreement.senderRemoved harmless stepped
  | forget i => exact agreement.forgotten harmless stepped

/-- The newest stream of a node stays the newest when an older one takes a step. -/
theorem Newest.set {s t : Server} {i j : Nat} {stream next newest : NodeStream} (isNewest : s.Newest j newest)
    (found : s.streams[i]? = some stream) (streams : t.streams = s.streams.set i next)
    (sameNode : next.node = stream.node) (different : j ≠ i) : t.Newest j newest := by
  obtain ⟨present, last⟩ := isNewest
  refine ⟨by rw [streams, List.getElem?_set_ne (Ne.symm different), present], ?_⟩
  intro later inside
  obtain ⟨k, position⟩ := List.mem_iff_getElem?.mp inside
  obtain ⟨bound, -⟩ := List.getElem?_eq_some_iff.mp found
  rw [List.getElem?_drop, streams] at position
  by_cases atI : i = j + 1 + k
  · rw [← atI, List.getElem?_set_self bound, Option.some.injEq] at position
    subst position
    rw [sameNode]
    refine last stream (List.mem_iff_getElem?.mpr ⟨k, ?_⟩)
    rw [List.getElem?_drop, ← atI, found]
  · rw [List.getElem?_set_ne atI] at position
    exact last later (List.mem_iff_getElem?.mpr ⟨k, by rw [List.getElem?_drop, position]⟩)

/-- A step that leaves the tables in agreement touched none that the newest stream was using. -/
theorem harmless_of_agreement {s t : Server} {action : Action} (stepped : s.step action = some t)
    (agreement : t.Agreement) : s.Harmless action := by
  cases action with
  | connect node labels => trivial
  | insert i =>
    simp only [step] at stepped
    obtain ⟨stream, found, atPhase, rfl⟩ := advance_spec stepped
    intro other isOther j _ newest _ isNewest same different
    obtain rfl : stream = other := by simpa [found] using isOther
    have agrees := agreement.newest j newest (isNewest.set found rfl rfl different)
    have entered := agrees.entered
    have removed := agrees.removed
    simp only [same, Std.TreeMap.getElem?_insert_self, Option.some.injEq, reduceCtorEq] at entered removed
    cases phase : newest.phase <;> simp_all
  | receive i message =>
    simp only [step] at stepped
    obtain ⟨stream, found, atPhase, rfl⟩ := advance_spec stepped
    intro reports other isOther j _ newest _ isNewest same different closed
    obtain rfl : stream = other := by simpa [found] using isOther
    obtain ⟨streams, -, -, keeps⟩ := handle_spec
      { s with streams := s.streams.set i { stream with reported := stream.reported || message.reports } }
      stream.node message
    have agrees := agreement.newest j newest (isNewest.set found streams rfl different)
    exact agrees.reclaimed closed ((keeps newest.node).mpr (.inl ⟨same, reports⟩))
  | disconnect i =>
    simp only [step] at stepped
    obtain ⟨stream, found, atPhase, rfl⟩ := advance_spec stepped
    intro other isOther j _ newest _ isNewest same different
    obtain rfl : stream = other := by simpa [found] using isOther
    have agrees := agreement.newest j newest (isNewest.set found rfl rfl different)
    have connected := agrees.connected
    simpa [RuntimeStore.disconnect_isConnected, same] using connected
  | remove i =>
    simp only [step] at stepped
    obtain ⟨stream, found, atPhase, rfl⟩ := advance_spec stepped
    intro other isOther j _ newest _ isNewest same different
    obtain rfl : stream = other := by simpa [found] using isOther
    have agrees := agreement.newest j newest (isNewest.set found rfl rfl different)
    have entered := agrees.entered
    simpa [same] using entered
  | forget i =>
    simp only [step] at stepped
    obtain ⟨stream, found, atPhase, rfl⟩ := advance_spec stepped
    intro other isOther j _ newest _ isNewest same different
    obtain rfl : stream = other := by simpa [found] using isOther
    have agrees := agreement.newest j newest (isNewest.set found rfl rfl different)
    by_cases closed : newest.phase = .closed
    · exact .inl closed
    · refine .inr (Bool.eq_false_iff.mpr fun reported => ?_)
      have kept := agrees.kept reported closed
      simp [FleetBudgets.forgetNode_keeps, same] at kept

/-- The session table, the runtime store and the budget ledger agree with each node's newest stream after every
    step of a run exactly when no step of it touches a table that the newest stream of its node is using. -/
theorem tables_agree_iff_harmless {actions : List Action} {s : Server}
    (executed : Runs.exec step new actions = some s) :
    (∀ before after t, actions = before ++ after → Runs.exec step new before = some t → t.Agreement) ↔
      Runs.Along step Harmless new actions := by
  symm
  refine Runs.along_iff_states (fun s action t agreement stepped => ?_) agreement_new executed
  exact ⟨harmless_of_agreement stepped, fun harmless => agreement_step s action t agreement harmless stepped⟩

/-- A stream opens, reports and closes, then the node comes back. -/
def closedThenBack : List Action :=
  [.connect "n1" ∅, .insert 0, .receive 0 (.usage [⟨⟨"team", "ml"⟩, 100, 7⟩]), .disconnect 0, .remove 0, .forget 0,
    .connect "n1" ∅, .insert 1]

theorem tables_agree_after_return : ((Runs.exec step new closedThenBack).getD new).Agreement := by
  have executed := Runs.exec_eq_getD step new closedThenBack (by decide) new
  have throughout := (tables_agree_iff_harmless executed).mpr (by decide)
  exact throughout closedThenBack [] _ (List.append_nil _).symm executed

/-- A node comes back before its old stream has ended. When the old stream is cleaned up, the new one is still
    open, and its node is in no table. -/
theorem cleanup_of_old_stream_drops_new :
    ¬ ∀ actions s, Runs.exec step new actions = some s → s.Agreement := by
  intro claimed
  have executed := Runs.exec_eq_getD step new [.connect "n1" ∅, .insert 0, .connect "n1" ∅, .insert 1,
    .disconnect 0, .remove 0, .forget 0] (by decide) new
  have agrees := (claimed _ _ executed).newest 1 ⟨"n1", .registered, false⟩ (by decide)
  have entered := agrees.entered (.inl rfl)
  revert entered
  decide

end Server

end SmallGateway
