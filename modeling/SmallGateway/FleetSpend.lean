import SmallGateway.Admission
import SmallGateway.FleetBudgets
import Mathlib.Algebra.BigOperators.Fin

/-!
The fleet's spend as one system: any number of connected nodes, each with its own ledger and its own open
streams, and the control plane's ledger between them (`gatewayd/src/client.rs`, `gatewayctl/src/server.rs`).
A node's usage reporter sends a sync check or a usage report, the control plane ingests it and answers with
the node's shares, and the node applies them. Messages of one node keep their order; those of different
nodes interleave freely with each other and with the requests the nodes serve.

The messages carry a number that the source does not have. It says which report a grant answers, so that
"has since reported and applied the grant" can be stated.
-/

namespace SmallGateway.FleetSpend

open NodeBudgets (StoresCap Lifetime)

/-- What a node's usage reporter sends up. -/
inductive ClientMessage where
  | usage (spenders : List (CapId × Nat × Nat))
  | syncCheck (spenders : List (CapId × Nat × Nat))

def ClientMessage.spenders : ClientMessage → List (CapId × Nat × Nat)
  | .usage spenders => spenders
  | .syncCheck spenders => spenders

/-- A spender that a running stream was admitted for, with the terms of its request. -/
structure Charge where
  stream : Nat
  id : CapId
  terms : CapTerms
  deriving DecidableEq

/-- A node, with the messages it has sent and not yet seen ingested and the grants sent back to it and not
    yet applied. -/
structure NodeState where
  budgets : NodeBudgets
  charges : List Charge
  sent : Nat
  applied : Nat
  up : List (Nat × ClientMessage)
  down : List (Nat × List ShareAllocation)

structure State where
  nodes : String → NodeState
  ledger : FleetBudgets

/-- No node has seen a spender and nothing has been reported. -/
def init : State := ⟨fun nodeId => ⟨.new nodeId, [], 0, 0, [], []⟩, .new⟩

def setNode (s : State) (nodeId : String) (node : NodeState) : State :=
  { s with nodes := Function.update s.nodes nodeId node }

/-- One tick of the usage reporter: a sync check when a spender is escalating, else a usage report, and
    nothing when there is no spend to report. -/
def usageTick (budgets : NodeBudgets) (nowUnix : Nat) : Option ClientMessage × NodeBudgets :=
  let (escalating, budgets) := budgets.escalating nowUnix
  if escalating ≠ [] then (some (.syncCheck escalating), budgets)
  else
    let (report, budgets) := budgets.spendReport nowUnix
    if report = [] then (none, budgets) else (some (.usage report), budgets)

/-- Folds every figure of a report into the ledger. -/
def ingestUsage (ledger : FleetBudgets) (nodeId : String) (spenders : List (CapId × Nat × Nat)) :
    FleetBudgets :=
  spenders.foldl
    (fun ledger spender => (ledger.reportSpend nodeId spender.1 spender.2.1 spender.2.2).2) ledger

/-- The shares a message is answered with; a usage report is not answered when there are none. -/
def grantFor (ledger : FleetBudgets) (nodeId : String) : ClientMessage → Option (List ShareAllocation)
  | .usage _ => if ledger.sharesFor nodeId = [] then none else some (ledger.sharesFor nodeId)
  | .syncCheck _ => some (ledger.sharesFor nodeId)

def applyShareGrant (budgets : NodeBudgets) (shares : List ShareAllocation) : NodeBudgets :=
  if shares = [] then budgets
  else budgets.applyShares (shares.map fun a => (a.id, a.cap, a.share))

/-- What can happen next: a request is admitted or refused for one of its spenders, a running stream is
    metered or settled for one of them, the reporter ticks, the control plane takes a node's next message,
    a node takes its next grant. -/
inductive Op where
  | admitRequest (node : String) (charge : Charge) (nowUnix : Nat)
  | meter (node : String) (charge : Charge) (tokens nowUnix : Nat)
  | settle (node : String) (charge : Charge) (estimated : Nat) (authoritative : Option Nat) (nowUnix : Nat)
  | tick (node : String) (nowUnix : Nat)
  | ingest (node : String)
  | apply (node : String)

def Op.node : Op → String
  | .admitRequest node _ _ => node
  | .meter node _ _ _ => node
  | .settle node _ _ _ _ => node
  | .tick node _ => node
  | .ingest node => node
  | .apply node => node

def NodeState.admitRequest (node : NodeState) (charge : Charge) (nowUnix : Nat) : NodeState :=
  let (verdict, budgets) := node.budgets.admitRequest charge.id (some charge.terms) nowUnix
  { node with
    budgets := budgets
    charges := if verdict.isDeny then node.charges else charge :: node.charges }

def NodeState.settle (node : NodeState) (charge : Charge) (estimated : Nat)
    (authoritative : Option Nat) (nowUnix : Nat) : NodeState :=
  { node with
    budgets := node.budgets.settleAndLog [(charge.id, charge.terms)] estimated authoritative nowUnix
    charges := node.charges.erase charge }

def NodeState.tick (node : NodeState) (nowUnix : Nat) : NodeState :=
  match usageTick node.budgets nowUnix with
  | (none, budgets) => { node with budgets }
  | (some message, budgets) =>
    { node with budgets, sent := node.sent + 1, up := node.up ++ [(node.sent + 1, message)] }

variable (members : Finset String)

/-- The connected nodes are the members; only they take part. -/
def step (s : State) (op : Op) : Option State :=
  if op.node ∉ members then none
  else
    let node := s.nodes op.node
    match op with
    | .admitRequest nodeId charge nowUnix => some (setNode s nodeId (node.admitRequest charge nowUnix))
    | .meter nodeId charge tokens nowUnix =>
      if charge ∈ node.charges then
        some (setNode s nodeId { node with
          budgets := (node.budgets.meter charge.id (some charge.terms) tokens nowUnix).2.2 })
      else none
    | .settle nodeId charge estimated authoritative nowUnix =>
      if charge ∈ node.charges then
        some (setNode s nodeId (node.settle charge estimated authoritative nowUnix))
      else none
    | .tick nodeId nowUnix => some (setNode s nodeId (node.tick nowUnix))
    | .ingest nodeId =>
      match node.up with
      | [] => none
      | (number, message) :: rest =>
        let ledger := ingestUsage s.ledger nodeId message.spenders
        let answer := (grantFor ledger nodeId message).toList.map fun shares => (number, shares)
        some { setNode s nodeId { node with up := rest, down := node.down ++ answer } with ledger }
    | .apply nodeId =>
      match node.down with
      | [] => none
      | (number, shares) :: rest =>
        some (setNode s nodeId { node with
          budgets := applyShareGrant node.budgets shares, applied := number, down := rest })

/-! ### The cap over the fleet -/

/-- A new request for the spender would be refused by every connected node. -/
def EveryNodeDenies (s : State) (id : CapId) (t : CapTerms) (nowUnix : Nat) : Prop :=
  ∀ nodeId ∈ members, ((s.nodes nodeId).budgets.admitRequest id (some t) nowUnix).1.isDeny = true

/-- Every connected node has itself spent the whole cap on the spender. -/
def EveryCounterReached (s : State) (id : CapId) (cap : Nat) : Prop :=
  ∀ nodeId ∈ members, cap ≤ (s.nodes nodeId).budgets.spentOf id

/-- Every connected node has applied a grant that answers a report it sent after the earlier state. -/
def EveryNodeAnswered (earlier later : State) : Prop :=
  ∀ nodeId ∈ members, (earlier.nodes nodeId).sent < (later.nodes nodeId).applied

/-- The tokens on the spender's counters, over all connected nodes. -/
def fleetSpend (s : State) (id : CapId) : Nat :=
  ∑ nodeId ∈ members, (s.nodes nodeId).budgets.spentOf id

/-- Every request for the spender carries its one lifetime cap. -/
def LifetimeCap (id : CapId) (cap : Nat) (_ : State) (op : Op) : Prop :=
  ∀ nodeId charge nowUnix, op = .admitRequest nodeId charge nowUnix → charge.id = id →
    charge.terms.cap = cap ∧ charge.terms.window = none

/-- The tokens a step charges the spender for a stream that was already admitted in the earlier state: what
    it meters, and what the provider counted beyond the estimate. -/
def inFlight (earlier : State) (id : CapId) : Op → Nat
  | .meter nodeId charge tokens _ =>
    if charge.id = id ∧ charge ∈ (earlier.nodes nodeId).charges then tokens else 0
  | .settle nodeId charge estimated (some authoritative) _ =>
    if charge.id = id ∧ charge ∈ (earlier.nodes nodeId).charges then authoritative - estimated else 0
  | _ => 0

/-- Every place that holds a cap for the spender holds the one its requests carry. -/
private structure NodeInvariant (id : CapId) (cap : Nat) (node : NodeState) : Prop where
  connected : node.budgets.partitioned = false
  stores : StoresCap id (some cap) node.budgets
  lifetime : Lifetime id node.budgets
  charges : ∀ charge ∈ node.charges, charge.id = id →
    charge.terms.cap = cap ∧ charge.terms.window = none
  reports : ∀ message ∈ node.up, ∀ spender ∈ message.2.spenders, spender.1 = id → spender.2.1 = cap
  grants : ∀ grant ∈ node.down, ∀ share ∈ grant.2, share.id = id → share.cap = cap

private structure Invariant (id : CapId) (cap : Nat) (s : State) : Prop where
  nodes : ∀ nodeId, NodeInvariant id cap (s.nodes nodeId)
  ledger : ∀ entry, s.ledger.caps[id]? = some entry → entry.cap = cap

variable {id : CapId} {cap : Nat}

private theorem ledger_ingestUsage (nodeId : String) (spenders : List (CapId × Nat × Nat))
    {ledger : FleetBudgets} (holds : ∀ entry, ledger.caps[id]? = some entry → entry.cap = cap)
    (named : ∀ spender ∈ spenders, spender.1 = id → spender.2.1 = cap) :
    ∀ entry, (ingestUsage ledger nodeId spenders).caps[id]? = some entry → entry.cap = cap := by
  unfold ingestUsage
  induction spenders generalizing ledger with
  | nil => exact holds
  | cons spender spenders ih =>
    refine ih ?_ fun later inside => named later (List.mem_cons_of_mem _ inside)
    intro entry seen
    dsimp only at seen
    by_cases same : spender.1 = id
    · obtain ⟨reported, found, largest, -⟩ :=
        ledger.reportSpend_entry nodeId spender.1 spender.2.1 spender.2.2
      rw [same] at found largest seen
      rw [found, Option.some.injEq] at seen
      have told : spender.2.1 = cap := named spender List.mem_cons_self same
      have before : (ledger.capState id).cap = cap ∨ (ledger.capState id).cap = 0 := by
        cases known : ledger.caps[id]? with
        | none => exact Or.inr (by simp [FleetBudgets.capState, known, CapState.default])
        | some old => exact Or.inl (by simpa [FleetBudgets.capState, known] using holds old known)
      rw [← seen, largest, told]
      omega
    · rw [ledger.reportSpend_other nodeId spender.2.1 spender.2.2 (Ne.symm same)] at seen
      exact holds entry seen

private theorem unwindowed {charge : Charge} (window : charge.id = id → charge.terms.window = none) :
    charge.id = id → ∀ t, some charge.terms = some t → t.window = none := by
  rintro same t ⟨⟩
  exact window same

private theorem NodeInvariant.admitRequest {node : NodeState} (holds : NodeInvariant id cap node)
    {charge : Charge} (terms : charge.id = id → charge.terms.cap = cap ∧ charge.terms.window = none)
    (nowUnix : Nat) : NodeInvariant id cap (node.admitRequest charge nowUnix) where
  connected := holds.connected
  stores := by
    refine NodeBudgets.storesCap_preserved id (some cap) node.budgets
      (.admitRequest charge.id (some charge.terms) nowUnix) _ holds.stores ?_ rfl
    intro named inside
    by_cases same : charge.id = id
    · simpa [NodeBudgets.Op.capsNamed, same, (terms same).1] using inside
    · simp [NodeBudgets.Op.capsNamed, same] at inside
  lifetime := (holds.lifetime.admitRequest (unwindowed fun same => (terms same).2) nowUnix).1
  charges := by
    intro found inside same
    simp only [NodeState.admitRequest] at inside
    split at inside
    · exact holds.charges found inside same
    · rcases List.mem_cons.mp inside with rfl | older
      · exact terms same
      · exact holds.charges found older same
  reports := holds.reports
  grants := holds.grants

private theorem NodeInvariant.meter {node : NodeState} (holds : NodeInvariant id cap node)
    {charge : Charge} (running : charge ∈ node.charges) (tokens nowUnix : Nat) :
    NodeInvariant id cap { node with
      budgets := (node.budgets.meter charge.id (some charge.terms) tokens nowUnix).2.2 } where
  connected := by simpa using holds.connected
  stores := by
    refine NodeBudgets.storesCap_preserved id (some cap) node.budgets
      (.meter charge.id (some charge.terms) tokens nowUnix) _ holds.stores ?_ rfl
    intro named inside
    by_cases same : charge.id = id
    · simpa [NodeBudgets.Op.capsNamed, same, (holds.charges charge running same).1] using inside
    · simp [NodeBudgets.Op.capsNamed, same] at inside
  lifetime :=
    (holds.lifetime.meter (unwindowed fun same => (holds.charges charge running same).2) tokens nowUnix).1
  charges := holds.charges
  reports := holds.reports
  grants := holds.grants

private theorem settleAndLog_one (budgets : NodeBudgets) (charge : Charge) (estimated : Nat)
    (authoritative : Option Nat) (nowUnix : Nat) :
    budgets.settleAndLog [(charge.id, charge.terms)] estimated authoritative nowUnix =
      match authoritative with
      | none => budgets
      | some auth => budgets.settle charge.id estimated auth nowUnix := by
  cases authoritative <;> rfl

private theorem NodeInvariant.settle {node : NodeState} (holds : NodeInvariant id cap node)
    (charge : Charge) (estimated : Nat) (authoritative : Option Nat) (nowUnix : Nat) :
    NodeInvariant id cap (node.settle charge estimated authoritative nowUnix) where
  connected := by
    simp only [NodeState.settle, settleAndLog_one]
    cases authoritative with
    | none => exact holds.connected
    | some auth => simpa using holds.connected
  stores := by
    simp only [NodeState.settle, settleAndLog_one]
    cases authoritative with
    | none => exact holds.stores
    | some auth =>
      exact NodeBudgets.storesCap_preserved id (some cap) node.budgets
        (.settle charge.id estimated auth nowUnix) _ holds.stores
        (by simp [NodeBudgets.NamesOnly, NodeBudgets.Op.capsNamed]) rfl
  lifetime := by
    simp only [NodeState.settle, settleAndLog_one]
    cases authoritative with
    | none => exact holds.lifetime
    | some auth => exact holds.lifetime.settle estimated auth nowUnix
  charges := fun found inside => holds.charges found (List.mem_of_mem_erase inside)
  reports := holds.reports
  grants := holds.grants

/-- A tick rolls the ledger, and what it sends are entries of the rolled ledger. -/
private theorem usageTick_spec {budgets : NodeBudgets} (nowUnix : Nat)
    (stores : StoresCap id (some cap) budgets) (lifetime : Lifetime id budgets) :
    let (sent, after) := usageTick budgets nowUnix
    StoresCap id (some cap) after ∧ Lifetime id after ∧ after.spentOf id = budgets.spentOf id ∧
      after.partitioned = budgets.partitioned ∧
      ∀ message ∈ sent, ∀ spender ∈ message.spenders, spender.1 = id → spender.2.1 = cap := by
  have stores₁ := stores.rollAll nowUnix
  obtain ⟨lifetime₁, spent₁⟩ := lifetime.rollAll nowUnix
  have stores₂ := stores₁.rollAll nowUnix
  obtain ⟨lifetime₂, spent₂⟩ := lifetime₁.rollAll nowUnix
  have capOf : ∀ {after : NodeBudgets} {spender : CapId × Nat × Nat} {entry : Entry},
      StoresCap id (some cap) after → after.inner[spender.1]? = some entry →
        entry.budget.cap = some spender.2.1 → spender.1 = id → spender.2.1 = cap := by
    intro after spender entry stored seen known same
    rw [stored entry (same ▸ seen), Option.some.injEq] at known
    exact known.symm
  simp only [usageTick]
  split
  · refine ⟨stores₁, lifetime₁, spent₁, rfl, ?_⟩
    intro message sent spender inside same
    obtain rfl := Option.some.inj sent
    obtain ⟨entry, seen, known, -⟩ := NodeBudgets.mem_escalating.mp inside
    exact capOf stores₁ seen known same
  · by_cases nothing : ((budgets.escalating nowUnix).2.spendReport nowUnix).1 = []
    · simp only [nothing, if_true]
      exact ⟨stores₂, lifetime₂, spent₂.trans spent₁, rfl, by simp⟩
    · simp only [nothing, if_false]
      refine ⟨stores₂, lifetime₂, spent₂.trans spent₁, rfl, ?_⟩
      intro message sent spender inside same
      obtain rfl := Option.some.inj sent
      obtain ⟨entry, seen, known, -⟩ := NodeBudgets.mem_spendReport.mp inside
      exact capOf stores₂ seen known same

private theorem NodeInvariant.tick {node : NodeState} (holds : NodeInvariant id cap node)
    (nowUnix : Nat) : NodeInvariant id cap (node.tick nowUnix) ∧
      (node.tick nowUnix).budgets.spentOf id = node.budgets.spentOf id ∧
      (node.tick nowUnix).charges = node.charges := by
  have spec := usageTick_spec nowUnix holds.stores holds.lifetime
  unfold NodeState.tick
  rcases ticked : usageTick node.budgets nowUnix with ⟨sent, after⟩
  rw [ticked] at spec
  obtain ⟨stores, lifetime, spent, same, told⟩ := spec
  have connected : after.partitioned = false := same.trans holds.connected
  cases sent with
  | none => exact ⟨⟨connected, stores, lifetime, holds.charges, holds.reports, holds.grants⟩, spent, rfl⟩
  | some message =>
    refine ⟨⟨connected, stores, lifetime, holds.charges, ?_, holds.grants⟩, spent, rfl⟩
    intro found inside
    rcases List.mem_append.mp inside with older | newest
    · exact holds.reports found older
    · obtain rfl := List.mem_singleton.mp newest
      exact told message rfl

private theorem NodeInvariant.apply {node : NodeState} (holds : NodeInvariant id cap node)
    {number : Nat} {shares : List ShareAllocation} {rest : List (Nat × List ShareAllocation)}
    (next : node.down = (number, shares) :: rest) :
    NodeInvariant id cap { node with
      budgets := applyShareGrant node.budgets shares, applied := number, down := rest } ∧
      (applyShareGrant node.budgets shares).spentOf id = node.budgets.spentOf id := by
  have grants : ∀ grant ∈ rest, ∀ share ∈ grant.2, share.id = id → share.cap = cap :=
    fun grant inside => holds.grants grant (next ▸ List.mem_cons_of_mem _ inside)
  unfold applyShareGrant
  split
  · exact ⟨⟨holds.connected, holds.stores, holds.lifetime, holds.charges, holds.reports, grants⟩, rfl⟩
  · obtain ⟨lifetime, spent⟩ := holds.lifetime.applyShares (shares.map fun a => (a.id, a.cap, a.share))
    refine ⟨⟨by simpa using holds.connected, ?_, lifetime, holds.charges, holds.reports, grants⟩, spent⟩
    refine holds.stores.applyShares _ fun grant inside same => ?_
    obtain ⟨share, granted, rfl⟩ := List.mem_map.mp inside
    have told := holds.grants (number, shares) (next ▸ List.mem_cons_self) share granted same
    exact congrArg some told

variable {members : Finset String}

private theorem NodeInvariant.init (id : CapId) (cap : Nat) (nodeId : String) :
    NodeInvariant id cap (init.nodes nodeId) where
  connected := rfl
  stores := NodeBudgets.new_storesCap nodeId id _
  lifetime := NodeBudgets.new_lifetime nodeId id
  charges := fun charge inside => by simp [FleetSpend.init] at inside
  reports := fun message inside => by simp [FleetSpend.init] at inside
  grants := fun grant inside => by simp [FleetSpend.init] at inside

private theorem Invariant.init (id : CapId) (cap : Nat) : Invariant id cap init where
  nodes := NodeInvariant.init id cap
  ledger := fun entry seen => by simp [FleetSpend.init, FleetBudgets.new] at seen

private theorem Invariant.setNode {s : State} (holds : Invariant id cap s) {nodeId : String}
    {node : NodeState} (changed : NodeInvariant id cap node) : Invariant id cap (setNode s nodeId node) where
  nodes := by
    intro other
    by_cases same : other = nodeId
    · subst same
      simpa [FleetSpend.setNode] using changed
    · simpa [FleetSpend.setNode, same] using holds.nodes other
  ledger := holds.ledger

private theorem Invariant.ingest {s : State} (holds : Invariant id cap s) {nodeId : String}
    {number : Nat} {message : ClientMessage} {rest : List (Nat × ClientMessage)}
    (next : (s.nodes nodeId).up = (number, message) :: rest) :
    let ledger := ingestUsage s.ledger nodeId message.spenders
    let answer := (grantFor ledger nodeId message).toList.map fun shares => (number, shares)
    Invariant id cap { FleetSpend.setNode s nodeId { s.nodes nodeId with
      up := rest, down := (s.nodes nodeId).down ++ answer } with ledger } := by
  intro ledger answer
  have node := holds.nodes nodeId
  have told : ∀ entry, ledger.caps[id]? = some entry → entry.cap = cap :=
    ledger_ingestUsage nodeId message.spenders holds.ledger
      (node.reports (number, message) (next ▸ List.mem_cons_self))
  have granted : ∀ grant ∈ answer, ∀ share ∈ grant.2, share.id = id → share.cap = cap := by
    intro grant inside share found same
    obtain ⟨shares, answered, rfl⟩ := List.mem_map.mp inside
    have listed : shares = ledger.sharesFor nodeId := by
      cases message with
      | usage spenders =>
        simp only [grantFor, Option.mem_toList] at answered
        split at answered
        · cases answered
        · exact (Option.some.inj answered).symm
      | syncCheck spenders => exact (Option.some.inj (Option.mem_toList.mp answered)).symm
    obtain ⟨entry, seen, stored, -⟩ := FleetBudgets.mem_sharesFor (listed ▸ found)
    rw [stored]
    exact told entry (same ▸ seen)
  have changed : NodeInvariant id cap { s.nodes nodeId with
      up := rest, down := (s.nodes nodeId).down ++ answer } := by
    refine ⟨node.connected, node.stores, node.lifetime, node.charges, ?_, ?_⟩
    · exact fun found inside => node.reports found (next ▸ List.mem_cons_of_mem _ inside)
    · intro grant inside
      rcases List.mem_append.mp inside with older | newest
      · exact node.grants grant older
      · exact granted grant newest
  exact ⟨(holds.setNode changed).nodes, told⟩

/-- The state a step leads to, by the kind of the step: each changes one member, and only ingestion changes
    the ledger. -/
private theorem step_cases {s t : State} {op : Op} (stepped : step members s op = some t) :
    op.node ∈ members ∧
    ((∃ nodeId charge nowUnix, op = .admitRequest nodeId charge nowUnix ∧
        t = setNode s nodeId ((s.nodes nodeId).admitRequest charge nowUnix)) ∨
      (∃ nodeId charge tokens nowUnix, op = .meter nodeId charge tokens nowUnix ∧
        charge ∈ (s.nodes nodeId).charges ∧
        t = setNode s nodeId { s.nodes nodeId with
          budgets := ((s.nodes nodeId).budgets.meter charge.id (some charge.terms) tokens
            nowUnix).2.2 }) ∨
      (∃ nodeId charge estimated authoritative nowUnix,
        op = .settle nodeId charge estimated authoritative nowUnix ∧
        charge ∈ (s.nodes nodeId).charges ∧
        t = setNode s nodeId ((s.nodes nodeId).settle charge estimated authoritative nowUnix)) ∨
      (∃ nodeId nowUnix, op = .tick nodeId nowUnix ∧
        t = setNode s nodeId ((s.nodes nodeId).tick nowUnix)) ∨
      (∃ nodeId number message rest, op = .ingest nodeId ∧
        (s.nodes nodeId).up = (number, message) :: rest ∧
        t = { setNode s nodeId { s.nodes nodeId with
              up := rest
              down := (s.nodes nodeId).down ++
                (grantFor (ingestUsage s.ledger nodeId message.spenders) nodeId message).toList.map
                  fun shares => (number, shares) } with
            ledger := ingestUsage s.ledger nodeId message.spenders }) ∨
      (∃ nodeId number shares rest, op = .apply nodeId ∧
        (s.nodes nodeId).down = (number, shares) :: rest ∧
        t = setNode s nodeId { s.nodes nodeId with
          budgets := applyShareGrant (s.nodes nodeId).budgets shares
          applied := number
          down := rest })) := by
  unfold step at stepped
  by_cases member : op.node ∈ members
  · refine ⟨member, ?_⟩
    simp only [member, not_true_eq_false, if_false] at stepped
    cases op with
    | admitRequest nodeId charge nowUnix => exact Or.inl ⟨nodeId, charge, nowUnix, rfl, (Option.some.inj stepped).symm⟩
    | meter nodeId charge tokens nowUnix =>
      by_cases running : charge ∈ (s.nodes nodeId).charges
      · simp only [Op.node, running, if_true, Option.some.injEq] at stepped
        exact Or.inr (Or.inl ⟨nodeId, charge, tokens, nowUnix, rfl, running, stepped.symm⟩)
      · simp [Op.node, running] at stepped
    | settle nodeId charge estimated authoritative nowUnix =>
      by_cases running : charge ∈ (s.nodes nodeId).charges
      · simp only [Op.node, running, if_true, Option.some.injEq] at stepped
        exact Or.inr (Or.inr (Or.inl
          ⟨nodeId, charge, estimated, authoritative, nowUnix, rfl, running, stepped.symm⟩))
      · simp [Op.node, running] at stepped
    | tick nodeId nowUnix =>
      exact Or.inr (Or.inr (Or.inr (Or.inl ⟨nodeId, nowUnix, rfl, (Option.some.inj stepped).symm⟩)))
    | ingest nodeId =>
      rcases waiting : (s.nodes nodeId).up with _ | ⟨⟨number, message⟩, rest⟩
      · simp [Op.node, waiting] at stepped
      · simp only [Op.node, waiting, Option.some.injEq] at stepped
        exact Or.inr (Or.inr (Or.inr (Or.inr (Or.inl
          ⟨nodeId, number, message, rest, rfl, waiting, stepped.symm⟩))))
    | apply nodeId =>
      rcases waiting : (s.nodes nodeId).down with _ | ⟨⟨number, shares⟩, rest⟩
      · simp [Op.node, waiting] at stepped
      · simp only [Op.node, waiting, Option.some.injEq] at stepped
        exact Or.inr (Or.inr (Or.inr (Or.inr (Or.inr
          ⟨nodeId, number, shares, rest, rfl, waiting, stepped.symm⟩))))
  · simp [member] at stepped

private theorem invariant_preserved (id : CapId) (cap : Nat) :
    Runs.PreservesWhen (step members) (LifetimeCap id cap) (Invariant id cap) := by
  intro s op t holds lifetime stepped
  obtain ⟨-, kind⟩ := step_cases stepped
  rcases kind with ⟨nodeId, charge, nowUnix, rfl, rfl⟩ |
    ⟨nodeId, charge, tokens, nowUnix, rfl, running, rfl⟩ |
    ⟨nodeId, charge, estimated, authoritative, nowUnix, rfl, -, rfl⟩ |
    ⟨nodeId, nowUnix, rfl, rfl⟩ | ⟨nodeId, number, message, rest, rfl, waiting, rfl⟩ |
    ⟨nodeId, number, shares, rest, rfl, waiting, rfl⟩
  · exact holds.setNode ((holds.nodes nodeId).admitRequest (lifetime nodeId charge nowUnix rfl) nowUnix)
  · exact holds.setNode ((holds.nodes nodeId).meter running tokens nowUnix)
  · exact holds.setNode ((holds.nodes nodeId).settle charge estimated authoritative nowUnix)
  · exact holds.setNode ((holds.nodes nodeId).tick nowUnix).1
  · exact holds.ingest waiting
  · exact holds.setNode ((holds.nodes nodeId).apply waiting).1

/-! ### Who denies, and what the fleet spends from then on -/

/-- A node denies exactly when its own counter has reached the cap: its share plays no part. -/
private theorem NodeInvariant.denies {node : NodeState} (holds : NodeInvariant id cap node)
    (below : cap < u64Max) {t : CapTerms} (own : t.cap = cap) (lifetime : t.window = none)
    (nowUnix : Nat) :
    (node.budgets.admitRequest id (some t) nowUnix).1.isDeny = true ↔ cap ≤ node.budgets.spentOf id := by
  have recorded : node.budgets.recordedSpend id t nowUnix = node.budgets.spentOf id := by
    rw [← NodeBudgets.ensure_syncTerms_spent node.budgets id none,
      Entry.syncTerms_lifetime (holds.lifetime.ensure _) lifetime]
    exact NodeBudgets.ensure_spent _ _ _
  rw [NodeBudgets.admit_isDeny holds.connected, recorded, own, holds.stores.ensure]
  simp [below]

private theorem spentOf_setNode (s : State) (nodeId other : String) (node : NodeState) (id : CapId) :
    ((setNode s nodeId node).nodes other).budgets.spentOf id =
      if other = nodeId then node.budgets.spentOf id else (s.nodes other).budgets.spentOf id := by
  by_cases same : other = nodeId
  · subst same
    simp [setNode]
  · simp [setNode, same]

/-- When one member's counter rises by at most an amount, so does the fleet's spend. -/
private theorem fleetSpend_setNode_le {s : State} {nodeId : String} (node : NodeState) {id : CapId}
    {amount : Nat} (member : nodeId ∈ members)
    (bounded : node.budgets.spentOf id ≤ (s.nodes nodeId).budgets.spentOf id + amount) :
    fleetSpend members (setNode s nodeId node) id ≤ fleetSpend members s id + amount := by
  have others : ∑ other ∈ members.erase nodeId, ((setNode s nodeId node).nodes other).budgets.spentOf id =
      ∑ other ∈ members.erase nodeId, (s.nodes other).budgets.spentOf id := by
    refine Finset.sum_congr rfl fun other inside => ?_
    rw [spentOf_setNode, if_neg (Finset.ne_of_mem_erase inside)]
  unfold fleetSpend
  rw [← Finset.add_sum_erase members _ member, ← Finset.add_sum_erase members _ member, others,
    spentOf_setNode, if_pos rfl]
  omega

/-- What holds from a state on while every counter stays at the cap: no new stream runs for the spender. -/
private structure Since (earlier : State) (id : CapId) (cap : Nat) (s : State) : Prop where
  invariant : Invariant id cap s
  running : ∀ nodeId, ∀ charge ∈ (s.nodes nodeId).charges, charge.id = id →
    charge ∈ (earlier.nodes nodeId).charges

private theorem running_setNode {earlier s : State} {nodeId : String} (node : NodeState)
    (holds : ∀ other, ∀ charge ∈ (s.nodes other).charges, charge.id = id →
      charge ∈ (earlier.nodes other).charges)
    (changed : ∀ charge ∈ node.charges, charge.id = id → charge ∈ (earlier.nodes nodeId).charges) :
    ∀ other, ∀ charge ∈ ((setNode s nodeId node).nodes other).charges, charge.id = id →
      charge ∈ (earlier.nodes other).charges := by
  intro other
  by_cases same : other = nodeId
  · subst same
    simpa [setNode] using changed
  · simpa [setNode, same] using holds other

private theorem admit_denied {node : NodeState} {charge : Charge} {nowUnix : Nat}
    (denied : (node.budgets.admitRequest charge.id (some charge.terms) nowUnix).1.isDeny = true) :
    (node.admitRequest charge nowUnix).charges = node.charges := by
  simp [NodeState.admitRequest, denied]

private theorem since_preserved (members : Finset String) (id : CapId) (earlier : State)
    (below : cap < u64Max) :
    Runs.PreservesWhen (step members)
      (fun s op => LifetimeCap id cap s op ∧ EveryCounterReached members s id cap)
      (Since earlier id cap) := by
  rintro s op t holds ⟨lifetime, reached⟩ stepped
  refine ⟨invariant_preserved id cap s op t holds.invariant lifetime stepped, ?_⟩
  obtain ⟨member, kind⟩ := step_cases stepped
  rcases kind with ⟨nodeId, charge, nowUnix, rfl, rfl⟩ |
    ⟨nodeId, charge, tokens, nowUnix, rfl, -, rfl⟩ |
    ⟨nodeId, charge, estimated, authoritative, nowUnix, rfl, -, rfl⟩ |
    ⟨nodeId, nowUnix, rfl, rfl⟩ | ⟨nodeId, number, message, rest, rfl, -, rfl⟩ |
    ⟨nodeId, number, shares, rest, rfl, -, rfl⟩
  · refine running_setNode _ holds.running fun found inside same => ?_
    by_cases mine : charge.id = id
    · obtain ⟨own, window⟩ := lifetime nodeId charge nowUnix rfl mine
      have denied := ((holds.invariant.nodes nodeId).denies below own window nowUnix).mpr
        (reached nodeId member)
      rw [← mine] at denied
      rw [admit_denied denied] at inside
      exact holds.running nodeId found inside same
    · have older : found ∈ (s.nodes nodeId).charges := by
        simp only [NodeState.admitRequest] at inside
        split at inside
        · exact inside
        · rcases List.mem_cons.mp inside with rfl | older
          · exact absurd same mine
          · exact older
      exact holds.running nodeId found older same
  · exact running_setNode _ holds.running (holds.running nodeId)
  · refine running_setNode _ holds.running fun found inside => ?_
    exact holds.running nodeId found (List.mem_of_mem_erase inside)
  · refine running_setNode _ holds.running ?_
    rw [((holds.invariant.nodes nodeId).tick nowUnix).2.2]
    exact holds.running nodeId
  · exact running_setNode { s.nodes nodeId with up := rest, down := _ } holds.running
      (holds.running nodeId)
  · exact running_setNode _ holds.running (holds.running nodeId)

private theorem settle_spentOf_le {node : NodeState} (holds : NodeInvariant id cap node) (charge : Charge)
    (estimated auth nowUnix : Nat) :
    (node.settle charge estimated (some auth) nowUnix).budgets.spentOf id ≤
      node.budgets.spentOf id + if charge.id = id then auth - estimated else 0 := by
  simp only [NodeState.settle, settleAndLog_one]
  exact holds.lifetime.settle_spentOf_le estimated auth nowUnix

private theorem fleetSpend_step_le (earlier : State) :
    ∀ s op t, Since earlier id cap s →
      (LifetimeCap id cap s op ∧ EveryCounterReached members s id cap) →
        step members s op = some t →
          fleetSpend members t id ≤ fleetSpend members s id + inFlight earlier id op := by
  rintro s op t holds ⟨lifetime, -⟩ stepped
  obtain ⟨member, kind⟩ := step_cases stepped
  rcases kind with ⟨nodeId, charge, nowUnix, rfl, rfl⟩ |
    ⟨nodeId, charge, tokens, nowUnix, rfl, running, rfl⟩ |
    ⟨nodeId, charge, estimated, authoritative, nowUnix, rfl, running, rfl⟩ |
    ⟨nodeId, nowUnix, rfl, rfl⟩ | ⟨nodeId, number, message, rest, rfl, waiting, rfl⟩ |
    ⟨nodeId, number, shares, rest, rfl, waiting, rfl⟩
  · refine fleetSpend_setNode_le _ member (le_of_eq ?_)
    have terms := unwindowed fun same => (lifetime nodeId charge nowUnix rfl same).2
    exact ((holds.invariant.nodes nodeId).lifetime.admitRequest terms nowUnix).2
  · refine fleetSpend_setNode_le _ member ?_
    have terms := unwindowed fun same => ((holds.invariant.nodes nodeId).charges charge running same).2
    rw [((holds.invariant.nodes nodeId).lifetime.meter terms tokens nowUnix).2]
    by_cases mine : charge.id = id
    · have older := holds.running nodeId charge running mine
      simp only [mine, if_true, inFlight, older, and_self]
      exact saturatingAdd_le _ _
    · simp [mine, inFlight]
  · refine fleetSpend_setNode_le _ member ?_
    cases authoritative with
    | none => exact Nat.le_add_right _ _
    | some auth =>
      refine le_trans (settle_spentOf_le (holds.invariant.nodes nodeId) charge estimated auth nowUnix) ?_
      by_cases mine : charge.id = id
      · have older := holds.running nodeId charge running mine
        simp [mine, inFlight, older]
      · simp [mine, inFlight]
  · refine fleetSpend_setNode_le _ member (le_of_eq ?_)
    exact ((holds.invariant.nodes nodeId).tick nowUnix).2.1
  · exact fleetSpend_setNode_le (s := s) { s.nodes nodeId with up := rest, down := _ } member
      (Nat.le_add_right _ _)
  · refine fleetSpend_setNode_le _ member (le_of_eq ?_)
    exact ((holds.invariant.nodes nodeId).apply waiting).2

/-- Every connected node denies a new request exactly when every one of them has itself spent the whole cap:
    the fleet-wide total never stops a node. While all of them have, no new stream is admitted, and the fleet
    spends no more than it had plus what the streams admitted before still charge; that is the cap plus those
    charges when the fleet had spent no more than the cap. -/
theorem every_node_denies_iff_every_counter_reached (members : Finset String) (id : CapId) (cap : Nat)
    (ops : List Op) (s : State) (below : cap < u64Max)
    (lifetime : Runs.Along (step members) (LifetimeCap id cap) init ops)
    (executed : Runs.exec (step members) init ops = some s) :
    (∀ (t : CapTerms) (nowUnix : Nat), t.cap = cap → t.window = none →
      (EveryNodeDenies members s id t nowUnix ↔ EveryCounterReached members s id cap)) ∧
    (∀ (later : List Op) (s' : State),
      Runs.Along (step members)
          (fun s op => LifetimeCap id cap s op ∧ EveryCounterReached members s id cap) s later →
        Runs.exec (step members) s later = some s' →
          (∀ nodeId, ∀ charge ∈ (s'.nodes nodeId).charges, charge.id = id →
            charge ∈ (s.nodes nodeId).charges) ∧
          fleetSpend members s' id ≤ fleetSpend members s id + (later.map (inFlight s id)).sum ∧
          (fleetSpend members s id ≤ cap →
            fleetSpend members s' id ≤ cap + (later.map (inFlight s id)).sum)) := by
  have holds : Invariant id cap s :=
    Runs.exec_preserves_along (invariant_preserved id cap) (Invariant.init id cap) lifetime executed
  constructor
  · intro t nowUnix own window
    unfold EveryNodeDenies EveryCounterReached
    refine forall_congr' fun nodeId => imp_congr_right fun _ => ?_
    exact (holds.nodes nodeId).denies below own window nowUnix
  · intro later s' along continued
    have start : Since s id cap s := ⟨holds, fun _ _ inside _ => inside⟩
    have preserved := since_preserved members id s below
    have since := Runs.exec_preserves_along preserved start along continued
    have bound := Runs.exec_bounded_along preserved (fleetSpend_step_le s) start along continued
    exact ⟨since.running, bound, fun within => by omega⟩

/-- A stream of the capped spender of the runs below. -/
def teamCharge : Charge := ⟨0, ⟨"team", "ml"⟩, ⟨100, none, 4 / 5⟩⟩

/-- One node that spends the whole cap of 100. -/
def loneNodeSpends : List Op := [.admitRequest "n1" teamCharge 0, .meter "n1" teamCharge 100 0]

/-- The only node of a fleet has spent the whole cap, so it denies. -/
theorem every_node_denies_lone_node :
    ∃ s, Runs.exec (step {"n1"}) init loneNodeSpends = some s ∧
      EveryNodeDenies {"n1"} s teamCharge.id teamCharge.terms 0 := by
  have executed : Runs.exec (step {"n1"}) init loneNodeSpends =
      some ((Runs.exec (step {"n1"}) init loneNodeSpends).getD init) :=
    Runs.exec_eq_getD _ _ _ (by decide +kernel) init
  refine ⟨_, executed, ?_⟩
  refine ((every_node_denies_iff_every_counter_reached {"n1"} teamCharge.id 100 loneNodeSpends _
    (by decide) ?_ executed).1 teamCharge.terms 0 rfl rfl).mpr ?_
  · refine ⟨?_, fun _ _ => ⟨?_, fun _ _ => trivial⟩⟩
    · rintro nodeId charge nowUnix ⟨⟩ -
      exact ⟨rfl, rfl⟩
    · rintro nodeId charge nowUnix ⟨⟩
  · intro nodeId member
    obtain rfl := Finset.mem_singleton.mp member
    decide +kernel

/-- Two nodes spend 60 each under a cap of 100, and both figures reach the ledger. -/
def twoNodesSpend : List Op :=
  [.admitRequest "n1" teamCharge 0, .admitRequest "n2" teamCharge 0, .meter "n1" teamCharge 60 0,
    .meter "n2" teamCharge 60 0, .tick "n1" 0, .tick "n2" 0, .ingest "n1", .ingest "n2"]

/-- Then both report once more and apply every grant they got back. -/
def twoNodesAnswered : List Op :=
  [.tick "n1" 0, .tick "n2" 0, .ingest "n1", .ingest "n2", .apply "n1", .apply "n1", .apply "n2",
    .apply "n2"]

/-- The ledger's total of 120 is past the cap of 100 and both nodes have since reported and applied their
    grants, yet a node still admits. -/
theorem fleet_past_cap_still_admits :
    ¬ ∀ (members : Finset String) (id : CapId) (cap : Nat) (before after : List Op) (s s' : State),
      Runs.Along (step members) (LifetimeCap id cap) init (before ++ after) →
        Runs.exec (step members) init before = some s → cap ≤ s.ledger.totalSpend id →
          Runs.exec (step members) s after = some s' → EveryNodeAnswered members s s' →
            ∀ (t : CapTerms) (nowUnix : Nat), t.cap = cap → t.window = none →
              EveryNodeDenies members s' id t nowUnix := by
  intro claimed
  have first : Runs.exec (step {"n1", "n2"}) init twoNodesSpend =
      some ((Runs.exec (step {"n1", "n2"}) init twoNodesSpend).getD init) :=
    Runs.exec_eq_getD _ _ _ (by decide +kernel) init
  have second := Runs.exec_eq_getD (step {"n1", "n2"})
    ((Runs.exec (step {"n1", "n2"}) init twoNodesSpend).getD init) twoNodesAnswered (by decide +kernel) init
  have lifetime : Runs.Along (step {"n1", "n2"}) (LifetimeCap teamCharge.id 100) init
      (twoNodesSpend ++ twoNodesAnswered) := by
    refine Runs.along_of_forall fun s op inside nodeId charge nowUnix isAdmit => ?_
    subst isAdmit
    simp [twoNodesSpend, twoNodesAnswered] at inside
    rcases inside with ⟨-, rfl, -⟩ | ⟨-, rfl, -⟩ <;> exact fun _ => ⟨rfl, rfl⟩
  have denied := claimed {"n1", "n2"} teamCharge.id 100 twoNodesSpend twoNodesAnswered _ _ lifetime first
    (by decide +kernel) second (by unfold EveryNodeAnswered; decide +kernel) teamCharge.terms 0 rfl rfl
    "n1" (by decide)
  revert denied
  decide +kernel

end SmallGateway.FleetSpend
