import SmallGateway.Lib.Maps
import SmallGateway.Sessions
import SmallGateway.Text

/-!
The loop that handles what a node sends (`session` in `gatewayctl/src/server.rs`), with the calls that can panic in it:
a hash is cut for the log at its twelfth byte, and the ledger adds up what the nodes report without a bound. A handler
that panics is gone, its node stays connected, and a panic inside the ledger poisons its lock for every other handler.
No handler panics, no counter overflows and every cleanup is reached exactly as long as each hash can be cut and the
figures of each spender fit in 64 bits (`handlers_sound_iff`).

Arithmetic is checked, as where the tests run. Unchecked, the sums wrap instead.
-/

namespace SmallGateway

/-! ### Telemetry (`gatewayctl/src/telemetry.rs`) -/

/-- What a node was observed to do in a window. -/
structure NodeWindow (F : Type) where
  requests : Nat
  errors : Nat
  latenciesMs : List F

structure ParsedHealth (F : Type) where
  healthy : Bool
  requests : Option Nat
  errors : Option Nat
  p99Ms : Option F

/-- The words of a text. -/
def splitWhitespace (text : List Char) : List (List Char) :=
  (text.splitOnP Text.isWhitespace).filter (· ≠ [])

/-- A text that is read backwards, without the units it starts with. -/
def dropMs : List Char → List Char
  | 's' :: 'm' :: rest => dropMs rest
  | text => text

def trimEndMs (text : List Char) : List Char := (dropMs text.reverse).reverse

/-- Reads a tally of a health text. The number library is a parameter. -/
def parseTally {F : Type} (parseF64 : String → Option F) (parsed : ParsedHealth F) (word : List Char) :
    ParsedHealth F :=
  match Text.splitOnce '=' word with
  | none => parsed
  | some (key, value) =>
    match String.ofList key with
    | "req" | "requests" => { parsed with requests := Text.parseU64 (String.ofList value) }
    | "err" | "errors" => { parsed with errors := Text.parseU64 (String.ofList value) }
    | "p99" | "p99_ms" => { parsed with p99Ms := parseF64 (String.ofList (trimEndMs value)) }
    | _ => parsed

def parseHealth {F : Type} (parseF64 : String → Option F) (health : String) : ParsedHealth F :=
  let trimmed := (Text.trim health).toList
  (splitWhitespace trimmed).foldl (parseTally parseF64)
    ⟨!"degraded".toList.isPrefixOf trimmed, none, none, none⟩

def maxLatencySamples : Nat := 512

/-- The windows of the nodes. -/
abbrev FleetTelemetry (F : Type) := Std.TreeMap String (NodeWindow F)

namespace FleetTelemetry

variable {F : Type}

def windowFor (telemetry : FleetTelemetry F) (nodeId : String) : NodeWindow F :=
  telemetry[nodeId]?.getD ⟨0, 0, []⟩

/-- Counts what a node reports of its requests. One that only says it is degraded counts as one failed request. -/
def recordHealth (parseF64 : String → Option F) (telemetry : FleetTelemetry F) (nodeId health : String) :
    FleetTelemetry F :=
  let parsed := parseHealth parseF64 health
  let w := telemetry.windowFor nodeId
  let w := match parsed.requests, parsed.errors with
    | some req, some err =>
      { w with requests := saturatingAdd w.requests req, errors := saturatingAdd w.errors err }
    | some req, none =>
      { w with
        requests := saturatingAdd w.requests req
        errors := if parsed.healthy then w.errors else saturatingAdd w.errors 1 }
    | none, _ =>
      if parsed.healthy then w
      else { w with requests := saturatingAdd w.requests 1, errors := saturatingAdd w.errors 1 }
  let w := match parsed.p99Ms with
    | some p99 =>
      if w.latenciesMs.length < maxLatencySamples then { w with latenciesMs := w.latenciesMs ++ [p99] } else w
    | none => w
  telemetry.insert nodeId w

def recordNack (telemetry : FleetTelemetry F) (nodeId : String) : FleetTelemetry F :=
  let w := telemetry.windowFor nodeId
  telemetry.insert nodeId
    { w with requests := saturatingAdd w.requests 1, errors := saturatingAdd w.errors 1 }

/-- The counters of a window are numbers of 64 bits. -/
def InRange (telemetry : FleetTelemetry F) : Prop :=
  ∀ (nodeId : String) (w : NodeWindow F), telemetry[nodeId]? = some w → w.requests ≤ u64Max ∧ w.errors ≤ u64Max

end FleetTelemetry

/-! ### The handler of a stream -/

namespace StreamHandler

variable {F : Type}

/-- Why a handler panics: a hash that is cut inside a character, a sum that does not fit, or a lock that another
    handler has poisoned. -/
inductive Fault where
  | cutHash
  | overflow
  | poisoned
  deriving DecidableEq

/-- What a node sends once its stream is open. -/
inductive ClientMessage where
  | ack (fleetVersion : Nat) (renderHash : String)
  | nack (fleetVersion : Nat) (reason : String)
  | status (observedRenderHash health : String)
  | usage (spenders : List SpenderUsage)
  | syncCheck (spenders : List SpenderUsage)
  | unexpected

/-- What the handlers share. The session table holds the sender of a node's stream. -/
structure ControlPlane (F : Type) where
  store : RuntimeStore
  sessions : Sessions
  telemetry : FleetTelemetry F
  budgets : FleetBudgets
  poisoned : Bool

/-- The figures of a spender add up to a number of 64 bits. -/
def Summable (entry : CapState) : Prop := entry.totalSpend ≤ u64Max

instance (entry : CapState) : Decidable (Summable entry) := inferInstanceAs (Decidable (_ ≤ _))

namespace ControlPlane

def new : ControlPlane F := ⟨.new, ∅, ∅, .new, false⟩

/-- Ingests one figure. The total is summed up before and after it is put in, under the lock. -/
def reportSpend (cp : ControlPlane F) (nodeId : String) (s : SpenderUsage) : ControlPlane F × Option Fault :=
  if cp.poisoned then (cp, some .poisoned)
  else
    let entry := cp.budgets.capState s.id
    let raised := { entry with cap := max entry.cap s.capTokens }
    let put := { raised with perNodeSpend := raised.perNodeSpend.insert nodeId s.tokens }
    if ¬ Summable raised then ({ cp with budgets := cp.budgets.put s.id raised, poisoned := true }, some .overflow)
    else if ¬ Summable put then ({ cp with budgets := cp.budgets.put s.id put, poisoned := true }, some .overflow)
    else ({ cp with budgets := (cp.budgets.reportSpend nodeId s.id s.capTokens s.tokens).2 }, none)

def ingestUsage (cp : ControlPlane F) (nodeId : String) : List SpenderUsage → ControlPlane F × Option Fault
  | [] => (cp, none)
  | s :: rest =>
    match cp.reportSpend nodeId s with
    | (cp, none) => cp.ingestUsage nodeId rest
    | (cp, some fault) => (cp, some fault)

/-- The node's shares of the capped spenders, which are worked out from the totals. -/
def shareGrantFor (cp : ControlPlane F) (nodeId : String) : Except Fault (List ShareAllocation) :=
  if cp.poisoned then .error .poisoned
  else if cp.budgets.caps.toList.all fun (_, entry) => entry.cap = 0 ∨ Summable entry then
    .ok (cp.budgets.sharesFor nodeId)
  else .error .overflow

/-- Figures come in, and the node's shares go back. -/
def handleSpenders (cp : ControlPlane F) (nodeId : String) (spenders : List SpenderUsage) :
    ControlPlane F × Option Fault :=
  match cp.ingestUsage nodeId spenders with
  | (cp, some fault) => (cp, some fault)
  | (cp, none) =>
    match cp.shareGrantFor nodeId with
    | .ok _ => (cp, none)
    | .error fault => ({ cp with poisoned := true }, some fault)

/-- One message of a node, and the fault when its handler panics. -/
def handle (parseF64 : String → Option F) (cp : ControlPlane F) (nodeId : String) :
    ClientMessage → ControlPlane F × Option Fault
  | .ack version hash =>
    match Text.short hash with
    | none => (cp, some .cutHash)
    | some _ => ({ cp with store := cp.store.recordAck nodeId version hash }, none)
  | .nack version reason =>
    ({ cp with
      store := cp.store.recordNack nodeId version reason, telemetry := cp.telemetry.recordNack nodeId }, none)
  | .status hash health =>
    ({ cp with
      store := cp.store.recordStatus nodeId hash
      telemetry := cp.telemetry.recordHealth parseF64 nodeId health }, none)
  | .usage spenders => cp.handleSpenders nodeId spenders
  | .syncCheck spenders => cp.handleSpenders nodeId spenders
  | .unexpected => (cp, none)

/-- What is done when a stream has ended. -/
def cleanup (cp : ControlPlane F) (nodeId : String) : ControlPlane F × Option Fault :=
  let cp := { cp with store := cp.store.disconnect nodeId, sessions := cp.sessions.erase nodeId }
  if cp.poisoned then (cp, some .poisoned) else ({ cp with budgets := cp.budgets.forgetNode nodeId }, none)

end ControlPlane

/-- The handler of a stream runs, has cleaned up, or has panicked. -/
inductive Phase where
  | running
  | closed
  | panicked (fault : Fault)
  deriving DecidableEq

/-- The streams in the order of their admission, each with its node. -/
structure State (F : Type) where
  cp : ControlPlane F
  streams : List (String × Phase)

def init : State F := ⟨.new, []⟩

inductive Action where
  | join (nodeId : String) (labels : Labels)
  | receive (i : Nat) (message : ClientMessage)
  /-- The stream ends, or fails. -/
  | finish (i : Nat)

/-- A handler does some of its work, and is in a phase then unless it panics. -/
def State.run (s : State F) (i : Nat) (next : Phase) (work : ControlPlane F → String → ControlPlane F × Option Fault) :
    Option (State F) :=
  match s.streams[i]? with
  | some (nodeId, .running) =>
    match work s.cp nodeId with
    | (cp, none) => some ⟨cp, s.streams.set i (nodeId, next)⟩
    | (cp, some fault) => some ⟨cp, s.streams.set i (nodeId, .panicked fault)⟩
  | _ => none

def step (parseF64 : String → Option F) (s : State F) : Action → Option (State F)
  | .join nodeId labels =>
    some ⟨{ s.cp with
      store := s.cp.store.connect nodeId labels, sessions := s.cp.sessions.insert nodeId s.streams.length },
      s.streams ++ [(nodeId, .running)]⟩
  | .receive i message => s.run i .running fun cp nodeId => cp.handle parseF64 nodeId message
  | .finish i => s.run i .closed fun cp nodeId => cp.cleanup nodeId

/-! ### What a handler can handle -/

/-- The total of each spender fits after each figure that a node reports. -/
def FiguresFit (budgets : FleetBudgets) (nodeId : String) : List SpenderUsage → Prop
  | [] => True
  | s :: rest =>
    ((budgets.capState s.id).perNodeSpend.insert nodeId s.tokens).values.sum ≤ u64Max ∧
      FiguresFit (budgets.reportSpend nodeId s.id s.capTokens s.tokens).2 nodeId rest

/-- No character of the hash stands across its twelfth byte, and the figures fit. -/
def ClientMessage.Fits (budgets : FleetBudgets) (nodeId : String) : ClientMessage → Prop
  | .ack _ hash => (Text.short hash).isSome = true
  | .usage spenders => FiguresFit budgets nodeId spenders
  | .syncCheck spenders => FiguresFit budgets nodeId spenders
  | _ => True

def Handleable (s : State F) : Action → Prop
  | .receive i message =>
    match s.streams[i]? with
    | some (nodeId, .running) => message.Fits s.cp.budgets nodeId
    | _ => True
  | _ => True

instance decidableFiguresFit (nodeId : String) :
    ∀ (budgets : FleetBudgets) (spenders : List SpenderUsage), Decidable (FiguresFit budgets nodeId spenders)
  | _, [] => isTrue trivial
  | budgets, s :: rest =>
    have := decidableFiguresFit nodeId (budgets.reportSpend nodeId s.id s.capTokens s.tokens).2 rest
    inferInstanceAs (Decidable (_ ∧ _))

instance (budgets : FleetBudgets) (nodeId : String) : DecidablePred (ClientMessage.Fits budgets nodeId)
  | .ack _ _ => inferInstanceAs (Decidable (_ = true))
  | .usage spenders => decidableFiguresFit nodeId budgets spenders
  | .syncCheck spenders => decidableFiguresFit nodeId budgets spenders
  | .nack _ _ => isTrue trivial
  | .status _ _ => isTrue trivial
  | .unexpected => isTrue trivial

instance (s : State F) : DecidablePred (Handleable s)
  | .receive i message =>
    match found : s.streams[i]? with
    | some (nodeId, .running) =>
      decidable_of_iff (message.Fits s.cp.budgets nodeId) (by simp [Handleable, found])
    | some (_, .closed) => isTrue (by simp [Handleable, found])
    | some (_, .panicked _) => isTrue (by simp [Handleable, found])
    | none => isTrue (by simp [Handleable, found])
  | .join _ _ => isTrue trivial
  | .finish _ => isTrue trivial

/-- The counters of refusals are numbers of 32 bits. -/
def NacksFit (store : RuntimeStore) : Prop :=
  ∀ (nodeId : String) (node : NodeState), store.nodes[nodeId]? = some node → node.consecutiveNacks ≤ 2 ^ 32 - 1

/-- No counter is beyond its width. -/
structure CountersFit (cp : ControlPlane F) : Prop where
  ledger : ∀ (id : CapId) (entry : CapState), cp.budgets.caps[id]? = some entry → Summable entry
  windows : cp.telemetry.InRange
  nacks : NacksFit cp.store

/-- A step leaves every counter in its width, and a message its handler running; a stream that ends is cleaned up. -/
def SoundStep (parseF64 : String → Option F) (s : State F) (action : Action) : Prop :=
  ∀ t, step parseF64 s action = some t → CountersFit t.cp ∧
    match action with
    | .join _ _ => True
    | .receive _ _ => t.streams = s.streams
    | .finish i => ∀ nodeId phase, s.streams[i]? = some (nodeId, phase) →
        t.streams[i]? = some (nodeId, .closed) ∧ t.cp.store.isConnected nodeId = false ∧
          t.cp.sessions[nodeId]? = none ∧ ¬ t.cp.budgets.Keeps nodeId

/-! ### One message -/

theorem insert_inRange {telemetry : FleetTelemetry F} (inRange : telemetry.InRange) (nodeId : String) {w : NodeWindow F}
    (requests : w.requests ≤ u64Max) (errors : w.errors ≤ u64Max) :
    FleetTelemetry.InRange (telemetry.insert nodeId w) := by
  intro other found lookup
  rw [Std.TreeMap.getElem?_insert] at lookup
  split at lookup
  · obtain rfl := Option.some.inj lookup
    exact ⟨requests, errors⟩
  · exact inRange other found lookup

theorem windowFor_inRange {telemetry : FleetTelemetry F} (inRange : telemetry.InRange) (nodeId : String) :
    (telemetry.windowFor nodeId).requests ≤ u64Max ∧ (telemetry.windowFor nodeId).errors ≤ u64Max := by
  unfold FleetTelemetry.windowFor
  cases found : telemetry[nodeId]? with
  | none => exact ⟨Nat.zero_le _, Nat.zero_le _⟩
  | some w => exact inRange nodeId w found

theorem saturatingAdd_le_u64Max (a b : Nat) : saturatingAdd a b ≤ u64Max := Nat.min_le_right _ _

theorem recordNack_inRange {telemetry : FleetTelemetry F} (inRange : telemetry.InRange) (nodeId : String) :
    (telemetry.recordNack nodeId).InRange :=
  insert_inRange inRange nodeId (saturatingAdd_le_u64Max _ _) (saturatingAdd_le_u64Max _ _)

theorem recordHealth_inRange {telemetry : FleetTelemetry F} (inRange : telemetry.InRange) (parseF64 : String → Option F)
    (nodeId health : String) : (telemetry.recordHealth parseF64 nodeId health).InRange := by
  obtain ⟨requests, errors⟩ := windowFor_inRange inRange nodeId
  unfold FleetTelemetry.recordHealth
  extract_lets parsed w counted sampled
  -- The bounds hold whatever the text parses to.
  clear_value parsed
  have within : counted.requests ≤ u64Max ∧ counted.errors ≤ u64Max := by
    dsimp only [counted]
    split
    · exact ⟨saturatingAdd_le_u64Max _ _, saturatingAdd_le_u64Max _ _⟩
    · refine ⟨saturatingAdd_le_u64Max _ _, ?_⟩
      dsimp only
      split
      · exact errors
      · exact saturatingAdd_le_u64Max _ _
    · split
      · exact ⟨requests, errors⟩
      · exact ⟨saturatingAdd_le_u64Max _ _, saturatingAdd_le_u64Max _ _⟩
  clear_value counted
  have same : sampled.requests = counted.requests ∧ sampled.errors = counted.errors := by
    dsimp only [sampled]
    split
    · split <;> exact ⟨rfl, rfl⟩
    · exact ⟨rfl, rfl⟩
  exact insert_inRange inRange nodeId (same.1.trans_le within.1) (same.2.trans_le within.2)

/-- A change of a node's state that leaves its counter in its width. -/
theorem update_nacksFit {store : RuntimeStore} (fits : NacksFit store) (nodeId : String)
    {change : NodeState → NodeState}
    (keeps : ∀ node, node.consecutiveNacks ≤ 2 ^ 32 - 1 → (change node).consecutiveNacks ≤ 2 ^ 32 - 1) :
    NacksFit (store.update nodeId change) := by
  intro other node found
  by_cases same : other = nodeId
  · subst same
    rw [RuntimeStore.update_same] at found
    obtain ⟨before, stored, rfl⟩ := Option.map_eq_some_iff.mp found
    exact keeps before (fits other before stored)
  · rw [RuntimeStore.update_other store change same] at found
    exact fits other node found

theorem connect_nacksFit {store : RuntimeStore} (fits : NacksFit store) (nodeId : String) (labels : Labels) :
    NacksFit (store.connect nodeId labels) := by
  intro other node found
  by_cases same : other = nodeId
  · subst same
    unfold RuntimeStore.connect at found
    split at found
    next before stored =>
      simp only [Std.TreeMap.getElem?_insert_self, Option.some.injEq] at found
      subst found
      exact fits other before stored
    next =>
      simp only [Std.TreeMap.getElem?_insert_self, Option.some.injEq] at found
      subst found
      exact Nat.zero_le _
  · rw [RuntimeStore.connect_other store labels same] at found
    exact fits other node found

namespace ControlPlane

variable {cp : ControlPlane F} {nodeId : String}

theorem capState_summable (fits : CountersFit cp) (id : CapId) : Summable (cp.budgets.capState id) := by
  unfold FleetBudgets.capState
  cases stored : cp.budgets.caps[id]? with
  | none => exact (by decide : Summable CapState.default)
  | some entry => exact fits.ledger id entry stored

/-- A figure whose total fits is put in, and any other one is a fault. -/
theorem reportSpend_spec (nodeId : String) (fits : CountersFit cp) (unpoisoned : cp.poisoned = false)
    (s : SpenderUsage) :
    (((cp.budgets.capState s.id).perNodeSpend.insert nodeId s.tokens).values.sum ≤ u64Max →
      cp.reportSpend nodeId s =
          ({ cp with budgets := (cp.budgets.reportSpend nodeId s.id s.capTokens s.tokens).2 }, none) ∧
        CountersFit { cp with budgets := (cp.budgets.reportSpend nodeId s.id s.capTokens s.tokens).2 }) ∧
    (¬ ((cp.budgets.capState s.id).perNodeSpend.insert nodeId s.tokens).values.sum ≤ u64Max →
      (cp.reportSpend nodeId s).2 = some .overflow) := by
  have before : Summable { cp.budgets.capState s.id with cap := max (cp.budgets.capState s.id).cap s.capTokens } :=
    capState_summable fits s.id
  simp only [reportSpend, unpoisoned, Bool.false_eq_true, if_false, before, not_true]
  refine ⟨fun total => ⟨if_neg (not_not_intro total), fun id entry stored => ?_, fits.windows, fits.nacks⟩,
    fun total => ?_⟩
  · by_cases same : id = s.id
    · subst same
      obtain ⟨after, found, -, spend⟩ := cp.budgets.reportSpend_entry nodeId s.id s.capTokens s.tokens
      obtain rfl := Option.some.inj (found.symm.trans stored)
      rw [Summable, CapState.totalSpend, spend]
      exact total
    · rw [FleetBudgets.reportSpend_other _ nodeId s.capTokens s.tokens same] at stored
      exact fits.ledger id entry stored
  · exact congrArg Prod.snd (if_pos total)

/-- Figures that all fit are put in, and others end in a fault. -/
theorem ingestUsage_spec (nodeId : String) (fits : CountersFit cp) (unpoisoned : cp.poisoned = false)
    (spenders : List SpenderUsage) :
    (FiguresFit cp.budgets nodeId spenders → ∃ after, cp.ingestUsage nodeId spenders = (after, none) ∧
      CountersFit after ∧ after.poisoned = false) ∧
    (¬ FiguresFit cp.budgets nodeId spenders → (cp.ingestUsage nodeId spenders).2.isSome = true) := by
  induction spenders generalizing cp with
  | nil => exact ⟨fun _ => ⟨cp, rfl, fits, unpoisoned⟩, fun none => absurd trivial none⟩
  | cons s rest ih =>
    obtain ⟨put, refused⟩ := reportSpend_spec nodeId fits unpoisoned s
    by_cases total : ((cp.budgets.capState s.id).perNodeSpend.insert nodeId s.tokens).values.sum ≤ u64Max
    · obtain ⟨reported, fits⟩ := put total
      have others := ih fits unpoisoned
      rw [ingestUsage, reported]
      refine ⟨fun all => others.1 all.2, fun some_ => others.2 fun later => some_ ⟨total, later⟩⟩
    · refine ⟨fun all => absurd all.1 total, fun _ => ?_⟩
      have fault := refused total
      rw [ingestUsage]
      rcases reported : cp.reportSpend nodeId s with ⟨after, _ | other⟩
      · rw [reported] at fault
        cases fault
      · rfl

/-- Where every total fits, the shares can be worked out. -/
theorem shareGrantFor_spec (fits : CountersFit cp) (unpoisoned : cp.poisoned = false) :
    cp.shareGrantFor nodeId = .ok (cp.budgets.sharesFor nodeId) := by
  unfold shareGrantFor
  rw [unpoisoned, if_neg Bool.false_ne_true, if_pos]
  refine List.all_eq_true.mpr fun entry listed => ?_
  exact decide_eq_true (Or.inr (fits.ledger entry.1 entry.2 (Std.TreeMap.mem_toList_iff_getElem?_eq_some.mp listed)))

theorem handleSpenders_spec (fits : CountersFit cp) (unpoisoned : cp.poisoned = false) (spenders : List SpenderUsage) :
    (FiguresFit cp.budgets nodeId spenders → ∃ after, cp.handleSpenders nodeId spenders = (after, none) ∧
      CountersFit after ∧ after.poisoned = false) ∧
    (¬ FiguresFit cp.budgets nodeId spenders → (cp.handleSpenders nodeId spenders).2.isSome = true) := by
  obtain ⟨ingested, refused⟩ := ingestUsage_spec nodeId fits unpoisoned spenders
  unfold handleSpenders
  refine ⟨fun all => ?_, fun some_ => ?_⟩
  · obtain ⟨after, done, fits, unpoisoned⟩ := ingested all
    refine ⟨after, ?_, fits, unpoisoned⟩
    rw [done]
    simp only [shareGrantFor_spec fits unpoisoned]
  · have fault := refused some_
    rcases done : cp.ingestUsage nodeId spenders with ⟨after, _ | other⟩
    · rw [done] at fault
      cases fault
    · rfl

/-- A message that fits is handled, and any other one is a fault. -/
theorem handle_spec (nodeId : String) (fits : CountersFit cp) (unpoisoned : cp.poisoned = false)
    (parseF64 : String → Option F) (message : ClientMessage) :
    (message.Fits cp.budgets nodeId → ∃ after, cp.handle parseF64 nodeId message = (after, none) ∧
      CountersFit after ∧ after.poisoned = false) ∧
    (¬ message.Fits cp.budgets nodeId → (cp.handle parseF64 nodeId message).2.isSome = true) := by
  cases message with
  | ack version hash =>
    unfold handle
    simp only [ClientMessage.Fits]
    cases Text.short hash with
    | none => exact ⟨fun cut => (nomatch cut), fun _ => rfl⟩
    | some shown =>
      exact ⟨fun _ => ⟨_, rfl, ⟨fits.ledger, fits.windows, update_nacksFit fits.nacks nodeId fun _ _ => Nat.zero_le _⟩,
        unpoisoned⟩, fun uncut => absurd rfl uncut⟩
  | nack version reason =>
    exact ⟨fun _ => ⟨_, rfl, ⟨fits.ledger, recordNack_inRange fits.windows nodeId,
      update_nacksFit fits.nacks nodeId fun _ _ => Nat.min_le_right _ _⟩, unpoisoned⟩, fun none => absurd trivial none⟩
  | status hash health =>
    exact ⟨fun _ => ⟨_, rfl, ⟨fits.ledger, recordHealth_inRange fits.windows parseF64 nodeId health,
      update_nacksFit fits.nacks nodeId fun _ kept => kept⟩, unpoisoned⟩, fun none => absurd trivial none⟩
  | usage spenders => exact handleSpenders_spec fits unpoisoned spenders
  | syncCheck spenders => exact handleSpenders_spec fits unpoisoned spenders
  | unexpected => exact ⟨fun _ => ⟨cp, rfl, fits, unpoisoned⟩, fun none => absurd trivial none⟩

/-- Where no lock is poisoned, the cleanup is carried out. -/
theorem cleanup_spec (fits : CountersFit cp) (unpoisoned : cp.poisoned = false) (nodeId : String) :
    ∃ after, cp.cleanup nodeId = (after, none) ∧ CountersFit after ∧ after.poisoned = false ∧
      after.store.isConnected nodeId = false ∧ after.sessions[nodeId]? = none ∧ ¬ after.budgets.Keeps nodeId := by
  let after : ControlPlane F :=
    { cp with
      store := cp.store.disconnect nodeId
      sessions := cp.sessions.erase nodeId
      budgets := cp.budgets.forgetNode nodeId }
  have reached : cp.cleanup nodeId = (after, none) := if_neg (ne_true_of_eq_false unpoisoned)
  have ledger (id : CapId) (entry : CapState) (stored : after.budgets.caps[id]? = some entry) : Summable entry := by
    simp only [after, FleetBudgets.forgetNode, Std.TreeMap.getElem?_map, Option.map_eq_some_iff] at stored
    obtain ⟨before, known, rfl⟩ := stored
    exact le_trans (Maps.sum_values_erase_le before.perNodeSpend nodeId) (fits.ledger id before known)
  refine ⟨after, reached, ⟨ledger, fits.windows, update_nacksFit fits.nacks nodeId fun _ kept => kept⟩, unpoisoned,
    ?_, ?_, ?_⟩
  · show (cp.store.disconnect nodeId).isConnected nodeId = false
    simp [RuntimeStore.disconnect_isConnected]
  · exact Std.TreeMap.getElem?_erase_self
  · intro kept
    exact ((cp.budgets.forgetNode_keeps nodeId nodeId).mp kept).1 rfl

end ControlPlane

/-! ### Runs -/

/-- No counter is beyond its width, and no lock is poisoned. -/
structure Sound (s : State F) : Prop where
  counters : CountersFit s.cp
  unpoisoned : s.cp.poisoned = false

theorem init_sound : Sound (init : State F) := by
  refine ⟨⟨fun id entry stored => ?_, fun nodeId w found => ?_, fun nodeId node found => ?_⟩, rfl⟩
  · simp [init, ControlPlane.new, FleetBudgets.new] at stored
  · simp [init, ControlPlane.new] at found
  · simp [init, ControlPlane.new, RuntimeStore.new] at found

/-- A stream whose handler still runs stays as it is when it handles a message, and is gone when it panics. -/
theorem streams_kept_iff {streams : List (String × Phase)} {i : Nat} {nodeId : String}
    (running : streams[i]? = some (nodeId, .running)) (phase : Phase) :
    streams.set i (nodeId, phase) = streams ↔ phase = .running := by
  obtain ⟨inside, stream⟩ := List.getElem?_eq_some_iff.mp running
  constructor
  · intro same
    have here : (streams.set i (nodeId, phase))[i]? = some (nodeId, phase) := List.getElem?_set_self inside
    rw [same, running, Option.some.injEq, Prod.mk.injEq] at here
    exact here.2.symm
  · rintro rfl
    rw [← stream]
    exact List.set_getElem_self inside

/-- A message is a sound step exactly when it fits, and such a step leaves a sound state. -/
theorem receive_spec (parseF64 : String → Option F) {s t : State F} {i : Nat} {message : ClientMessage}
    (sound : Sound s) (stepped : step parseF64 s (.receive i message) = some t) :
    (SoundStep parseF64 s (.receive i message) ↔ Handleable s (.receive i message)) ∧
      (Handleable s (.receive i message) → Sound t) := by
  have only : SoundStep parseF64 s (.receive i message) ↔ CountersFit t.cp ∧ t.streams = s.streams := by
    simp [SoundStep, stepped]
  rw [only]
  simp only [step, State.run] at stepped
  split at stepped
  next nodeId running =>
    have handleable : Handleable s (.receive i message) ↔ message.Fits s.cp.budgets nodeId := by
      simp [Handleable, running]
    rw [handleable]
    obtain ⟨handled, refused⟩ :=
      ControlPlane.handle_spec nodeId sound.counters sound.unpoisoned parseF64 message
    by_cases fits : message.Fits s.cp.budgets nodeId
    · obtain ⟨after, done, counters, unpoisoned⟩ := handled fits
      rw [done] at stepped
      obtain rfl := Option.some.inj stepped
      exact ⟨iff_of_true ⟨counters, (streams_kept_iff running .running).mpr rfl⟩ fits, fun _ => ⟨counters, unpoisoned⟩⟩
    · have fault := refused fits
      rcases done : s.cp.handle parseF64 nodeId message with ⟨after, _ | panic⟩
      · rw [done] at fault
        cases fault
      · rw [done] at stepped
        obtain rfl := Option.some.inj stepped
        refine ⟨iff_of_false (fun kept => ?_) fits, fun none => absurd none fits⟩
        cases (streams_kept_iff running (.panicked panic)).mp kept.2
  next => cases stepped

/-- A stream that joins or ends is a sound step from a sound state. -/
theorem other_sound (parseF64 : String → Option F) {s t : State F} {action : Action} (sound : Sound s)
    (other : ∀ i message, action ≠ .receive i message) (stepped : step parseF64 s action = some t) :
    SoundStep parseF64 s action ∧ Sound t := by
  cases action with
  | join nodeId labels =>
    obtain rfl := Option.some.inj stepped
    have counters : CountersFit { s.cp with
        store := s.cp.store.connect nodeId labels, sessions := s.cp.sessions.insert nodeId s.streams.length } :=
      ⟨sound.counters.ledger, sound.counters.windows, connect_nacksFit sound.counters.nacks nodeId labels⟩
    refine ⟨fun u same => ?_, counters, sound.unpoisoned⟩
    obtain rfl := Option.some.inj same
    exact ⟨counters, trivial⟩
  | receive i message => exact absurd rfl (other i message)
  | finish i =>
    have enabled := stepped
    simp only [step, State.run] at stepped
    split at stepped
    next nodeId running =>
      obtain ⟨after, done, counters, unpoisoned, gone, removed, reclaimed⟩ :=
        ControlPlane.cleanup_spec sound.counters sound.unpoisoned nodeId
      rw [done] at stepped
      obtain rfl := Option.some.inj stepped
      refine ⟨fun u same => ?_, counters, unpoisoned⟩
      obtain rfl := Option.some.inj (enabled.symm.trans same)
      refine ⟨counters, fun node phase found => ?_⟩
      rw [running, Option.some.injEq, Prod.mk.injEq] at found
      obtain ⟨rfl, -⟩ := found
      exact ⟨List.getElem?_set_self (List.getElem?_eq_some_iff.mp running).1, gone, removed, reclaimed⟩
    next => cases stepped

/-- Throughout a run no handler panics, no counter overflows and every stream that ends is cleaned up, exactly when
    each hash can be cut for the log and the figures of each spender fit. -/
theorem handlers_sound_iff (parseF64 : String → Option F) (actions : List Action) (s : State F)
    (executed : Runs.exec (step parseF64) init actions = some s) :
    Runs.Along (step parseF64) (SoundStep parseF64) init actions ↔
      Runs.Along (step parseF64) Handleable init actions := by
  refine (Runs.along_iff_along Sound ?_ ?_ init_sound executed)
  · intro s action t sound met stepped
    cases action with
    | join nodeId labels => exact (other_sound parseF64 sound (by simp) stepped).2
    | receive i message =>
      obtain ⟨same, kept⟩ := receive_spec parseF64 sound stepped
      exact kept (same.mp met)
    | finish i => exact (other_sound parseF64 sound (by simp) stepped).2
  · intro s action t sound stepped
    cases action with
    | join nodeId labels =>
      exact iff_of_true (other_sound parseF64 sound (by simp) stepped).1 trivial
    | receive i message => exact (receive_spec parseF64 sound stepped).1
    | finish i => exact iff_of_true (other_sound parseF64 sound (by simp) stepped).1 trivial

/-- A node reads no decimal number in these texts. -/
def noDecimals (_ : String) : Option Nat := none

/-- Two nodes join and report, one of them is refused and acknowledges, and one of them leaves. -/
def reportedRun : List Action :=
  [.join "n1" ∅, .join "n2" ∅, .receive 0 (.nack 1 "no such backend"), .receive 0 (.ack 1 "8f14e45fceea167a"),
    .receive 1 (.status "8f14e45fceea167a" "degraded req=4 err=1"),
    .receive 0 (.usage [⟨⟨"team", "ml"⟩, 1000, 18446744073709551000⟩]),
    .receive 1 (.syncCheck [⟨⟨"team", "ml"⟩, 1000, 615⟩]), .finish 0]

theorem reported_run_sound : Runs.Along (step noDecimals) (SoundStep noDecimals) init reportedRun := by
  have executed := Runs.exec_eq_getD (step noDecimals) init reportedRun (by decide) init
  exact (handlers_sound_iff noDecimals reportedRun _ executed).mpr (by decide)

/-- Eleven letters, and one whose two bytes stand at the cut. -/
def accented : String := "aaaaaaaaaaaé"

/-- An acknowledgement whose hash cannot be cut ends the handler, and nothing cleans up after it. -/
theorem accented_hash_panics :
    ¬ ∀ (parseF64 : String → Option Nat) (actions : List Action),
      Runs.Along (step parseF64) (SoundStep parseF64) init actions := by
  intro claimed
  let joined : State Nat :=
    ⟨{ ControlPlane.new with store := RuntimeStore.new.connect "n1" ∅, sessions := (∅ : Sessions).insert "n1" 0 },
      [("n1", .running)]⟩
  have stepped : step noDecimals joined (.receive 0 (.ack 1 accented)) =
      some ⟨joined.cp, [("n1", .panicked .cutHash)]⟩ := by
    have uncut : Text.short accented = none := by decide
    simp [step, State.run, joined, ControlPlane.handle, uncut]
  have along := claimed noDecimals [.join "n1" ∅, .receive 0 (.ack 1 accented)]
  have kept := ((along.2 joined rfl).1 _ stepped).2
  cases kept

end StreamHandler

end SmallGateway
