import SmallGateway.UsageReporter

/-!
The nodes of a fleet and the control plane's ledger, joined by the usage reports (`gatewayd/src/client.rs`,
`gatewayctl/src/server.rs`: `ingest_usage`). A node keeps its ledger for as long as its process runs, across lost
streams; what it reports travels in order and is ingested later, and the ledger loses a node's figures when its
stream ends.

The figures of the control plane are compared with the spend of the node at the time it made the report. They agree
after a usage report exactly when the ledger has no figure left of a spender that is back at zero
(`reports_agree_iff`): a report leaves such a spender out, and the ledger keeps what is not reported.
-/

namespace SmallGateway

open FleetSpend (ingestUsage)

namespace FleetBudgets

/-- What the ledger holds a node to have spent for a spender. -/
def figure (budgets : FleetBudgets) (nodeId : String) (id : CapId) : Nat :=
  ((budgets.capState id).perNodeSpend[nodeId]?).getD 0

theorem reportSpend_figure (budgets : FleetBudgets) (nodeId : String) (id other : CapId) (cap spent : Nat) :
    (budgets.reportSpend nodeId id cap spent).2.figure nodeId other =
      if other = id then spent else budgets.figure nodeId other := by
  obtain ⟨entry, stored, -, spend⟩ := budgets.reportSpend_entry nodeId id cap spent
  by_cases same : other = id
  · subst same
    simp [figure, capState, stored, spend]
  · simp [figure, capState, reportSpend_other budgets nodeId cap spent same, same]

theorem reportSpend_capState_cap (budgets : FleetBudgets) (nodeId : String) (id other : CapId) (cap spent : Nat) :
    ((budgets.reportSpend nodeId id cap spent).2.capState other).cap =
      if other = id then max (budgets.capState id).cap cap else (budgets.capState other).cap := by
  obtain ⟨entry, stored, raised, -⟩ := budgets.reportSpend_entry nodeId id cap spent
  by_cases same : other = id
  · subst same
    simp [capState, stored, raised]
  · simp [capState, reportSpend_other budgets nodeId cap spent same, same]

theorem forgetNode_cap (budgets : FleetBudgets) (nodeId : String) (id : CapId) :
    ((budgets.forgetNode nodeId).capState id).cap = (budgets.capState id).cap := by
  unfold forgetNode capState
  rw [Std.TreeMap.getElem?_map]
  cases budgets.caps[id]? <;> rfl

end FleetBudgets

/-- A spender that a report leaves out keeps its figure. -/
theorem ingestUsage_figure_absent (ledger : FleetBudgets) (nodeId : String) (id : CapId)
    {spenders : List (CapId × Nat × Nat)} (absent : ∀ spender ∈ spenders, spender.1 ≠ id) :
    (ingestUsage ledger nodeId spenders).figure nodeId id = ledger.figure nodeId id := by
  unfold ingestUsage
  induction spenders generalizing ledger with
  | nil => rfl
  | cons first rest ih =>
    rw [List.foldl_cons, ih _ fun spender inside => absent spender (List.mem_cons_of_mem _ inside),
      FleetBudgets.reportSpend_figure, if_neg (Ne.symm (absent first List.mem_cons_self))]

/-- A spender that a report carries gets the figure reported. -/
theorem ingestUsage_figure_carried (ledger : FleetBudgets) (nodeId : String) {id : CapId} {tokens : Nat}
    {spenders : List (CapId × Nat × Nat)} (carried : ∃ spender ∈ spenders, spender.1 = id)
    (agreed : ∀ spender ∈ spenders, spender.1 = id → spender.2.2 = tokens) :
    (ingestUsage ledger nodeId spenders).figure nodeId id = tokens := by
  unfold ingestUsage
  induction spenders generalizing ledger with
  | nil => simp at carried
  | cons first rest ih =>
    rw [List.foldl_cons]
    have agreedRest : ∀ spender ∈ rest, spender.1 = id → spender.2.2 = tokens :=
      fun spender inside => agreed spender (List.mem_cons_of_mem _ inside)
    by_cases later : ∃ spender ∈ rest, spender.1 = id
    · exact ih _ later agreedRest
    · have here : first.1 = id := by
        obtain ⟨spender, inside, same⟩ := carried
        rcases List.mem_cons.mp inside with rfl | after
        · exact same
        · exact absurd ⟨spender, after, same⟩ later
      have kept := ingestUsage_figure_absent (ledger.reportSpend nodeId first.1 first.2.1 first.2.2).2 nodeId id
        fun spender inside same => later ⟨spender, inside, same⟩
      rw [ingestUsage] at kept
      rw [kept, FleetBudgets.reportSpend_figure, if_pos here.symm, agreed first List.mem_cons_self here]

/-- A message on its way to the control plane, with the node's ledger as it was when the message was made. -/
structure Sent where
  message : FleetSpend.ClientMessage
  ledger : NodeBudgets

/-- A message says what the ledger was when it was made: a usage report carries exactly the capped spenders with
    spend, and what any message carries of a spender is in its entry. -/
structure Sent.Faithful (sent : Sent) : Prop where
  usage : ∀ spenders, sent.message = .usage spenders → ∀ (id : CapId) (entry : Entry) (cap : Nat),
    sent.ledger.inner[id]? = some entry → entry.budget.cap = some cap →
      ((id, cap, entry.budget.spent) ∈ spenders ↔ entry.budget.spent ≠ 0)
  entries : ∀ spender ∈ sent.message.spenders, ∃ entry, sent.ledger.inner[spender.1]? = some entry ∧
    entry.budget.cap = some spender.2.1 ∧ entry.budget.spent = spender.2.2

/-- A node's process: its ledger and reporter, the messages that are not ingested yet, and, for each spender, the
    cap named by the first call of the process that names the spender. -/
structure NodeLink where
  reporter : UsageReporter
  wire : List Sent
  first : CapId → Option (Option Nat)

/-- The processes of a fleet and the control plane's ledger, with the caps under which the processes whose reports
    have been ingested first met the reported spenders. -/
structure UsageLedger where
  links : Std.TreeMap String NodeLink
  ledger : FleetBudgets
  heard : List (CapId × Nat)

namespace NodeLink

def start (nodeId : String) : NodeLink := ⟨⟨.new nodeId, false⟩, [], fun _ => none⟩

/-- The caps named first, after one more step. -/
def noteFirst (link : NodeLink) (action : UsageReporter.Action) : CapId → Option (Option Nat) :=
  match action with
  | .call op => fun id => (link.first id).or (op.capsNamed id).head?
  | _ => link.first

/-- A step of the process; a message it sends joins the wire. -/
def act (link : NodeLink) (action : UsageReporter.Action) : Option NodeLink :=
  (link.reporter.step action).map fun reporter =>
    { reporter
      wire := link.wire ++ (link.reporter.sends action).toList.map fun message => ⟨message, reporter.budgets⟩
      first := link.noteFirst action }

/-- The stream to the control plane is lost, and with it what was under way. -/
def lose (link : NodeLink) : NodeLink := { link with reporter.reporting := false, wire := [] }

/-- The caps under which the process first met the spenders that a message carries. -/
def heardIn (link : NodeLink) (message : FleetSpend.ClientMessage) : List (CapId × Nat) :=
  message.spenders.filterMap fun spender => (link.first spender.1).join.map fun cap => (spender.1, cap)

end NodeLink

namespace UsageLedger

def new : UsageLedger := ⟨∅, .new, []⟩

inductive Action where
  /-- A process of the node starts, in place of an earlier one. -/
  | start (node : String)
  | node (node : String) (action : UsageReporter.Action)
  /-- The control plane ingests the oldest message of the node. -/
  | ingest (node : String)
  | lose (node : String)
  | forget (node : String)

def step (s : UsageLedger) : Action → Option UsageLedger
  | .start node => some { s with links := s.links.insert node (.start node) }
  | .node node action =>
    match s.links[node]? with
    | none => none
    | some link => (link.act action).map fun next => { s with links := s.links.insert node next }
  | .ingest node =>
    match s.links[node]? with
    | none => none
    | some link =>
      match link.wire with
      | [] => none
      | sent :: rest =>
        some
          { links := s.links.insert node { link with wire := rest }
            ledger := ingestUsage s.ledger node sent.message.spenders
            heard := s.heard ++ link.heardIn sent.message }
  | .lose node =>
    match s.links[node]? with
    | none => none
    | some link => some { s with links := s.links.insert node link.lose }
  | .forget node => some { s with ledger := s.ledger.forgetNode node }

end UsageLedger

/-! ### What the messages under way carry -/

/-- What one step of the reporter does to the ledger. -/
theorem UsageReporter.step_budgets {reporter next : UsageReporter} {action : UsageReporter.Action}
    (stepped : reporter.step action = some next) :
    match action with
    | .call op => reporter.budgets.step op = some next.budgets
    | .tick nowUnix => next.budgets = reporter.budgets.rollAll nowUnix
    | .report nowUnix => next.budgets = reporter.budgets.rollAll nowUnix := by
  cases action with
  | call op =>
    obtain ⟨budgets, called, rfl⟩ := Option.map_eq_some_iff.mp stepped
    exact called
  | tick nowUnix =>
    simp only [UsageReporter.step] at stepped
    split at stepped
    · cases stepped
    · obtain rfl := Option.some.inj stepped
      rfl
  | report nowUnix =>
    simp only [UsageReporter.step] at stepped
    split at stepped
    · obtain rfl := Option.some.inj stepped
      rfl
    · cases stepped

/-- What the reporter sends is faithful to the ledger it leaves behind. -/
theorem UsageReporter.sends_faithful {reporter next : UsageReporter} {action : UsageReporter.Action}
    (stepped : reporter.step action = some next) {message : FleetSpend.ClientMessage}
    (sent : reporter.sends action = some message) : (⟨message, next.budgets⟩ : Sent).Faithful := by
  cases action with
  | call op => cases sent
  | tick nowUnix =>
    simp only [UsageReporter.sends] at sent
    split at sent
    · cases sent
    · obtain rfl := Option.some.inj sent
      have budgets : next.budgets = (reporter.budgets.escalating nowUnix).2 := step_budgets stepped
      refine ⟨fun _ isUsage => (by cases isUsage), fun spender inside => ?_⟩
      obtain ⟨entry, seen, capped, spent, -⟩ := NodeBudgets.mem_escalating.mp inside
      exact ⟨entry, budgets ▸ seen, capped, spent⟩
  | report nowUnix =>
    simp only [UsageReporter.sends] at sent
    split at sent
    · cases sent
    · obtain rfl := Option.some.inj sent
      have budgets : next.budgets = (reporter.budgets.spendReport nowUnix).2 := step_budgets stepped
      constructor
      · intro spenders isUsage id entry cap seen capped
        cases isUsage
        rw [budgets] at seen
        rw [NodeBudgets.mem_spendReport]
        constructor
        · rintro ⟨same, again, -, spent, some⟩
          exact fun zero => some (spent.trans zero)
        · intro some
          exact ⟨entry, seen, capped, rfl, some⟩
      · intro spender inside
        obtain ⟨entry, seen, capped, spent, -⟩ := NodeBudgets.mem_spendReport.mp inside
        exact ⟨entry, budgets ▸ seen, capped, spent⟩

/-- The caps of a process's entries are those that its calls named first, and its messages carry them. -/
structure NodeLink.Sound (link : NodeLink) : Prop where
  firsts : ∀ id, link.reporter.budgets.storedCap id = link.first id
  faithful : ∀ sent ∈ link.wire, sent.Faithful
  carried : ∀ sent ∈ link.wire, ∀ spender ∈ sent.message.spenders, link.first spender.1 = some (some spender.2.1)

namespace NodeLink

theorem start_sound (nodeId : String) : (start nodeId).Sound where
  firsts id := by simp [start, NodeBudgets.storedCap, NodeBudgets.new]
  faithful := by simp [start]
  carried := by simp [start]

theorem Sound.lose {link : NodeLink} (sound : link.Sound) : link.lose.Sound where
  firsts := sound.firsts
  faithful := by simp [NodeLink.lose]
  carried := by simp [NodeLink.lose]

/-- The first cap named stays the first. -/
theorem noteFirst_of_some {link : NodeLink} {id : CapId} {cap : Option Nat} (met : link.first id = some cap)
    (action : UsageReporter.Action) : link.noteFirst action id = some cap := by
  cases action <;> simp [noteFirst, met]

theorem step_firsts {link : NodeLink} (firsts : ∀ id, link.reporter.budgets.storedCap id = link.first id)
    {action : UsageReporter.Action} {next : UsageReporter} (stepped : link.reporter.step action = some next)
    (id : CapId) : next.budgets.storedCap id = link.noteFirst action id := by
  have budgets := UsageReporter.step_budgets stepped
  cases action with
  | call op =>
    rw [NodeBudgets.step_storedCap budgets id, firsts id]
    rfl
  | tick nowUnix =>
    have rolled : next.budgets = link.reporter.budgets.rollAll nowUnix := budgets
    rw [rolled, NodeBudgets.rollAll_storedCap, firsts id]
    rfl
  | report nowUnix =>
    have rolled : next.budgets = link.reporter.budgets.rollAll nowUnix := budgets
    rw [rolled, NodeBudgets.rollAll_storedCap, firsts id]
    rfl

theorem Sound.act {link next : NodeLink} (sound : link.Sound) {action : UsageReporter.Action}
    (acted : link.act action = some next) : next.Sound := by
  obtain ⟨reporter, stepped, rfl⟩ := Option.map_eq_some_iff.mp acted
  have firsts := step_firsts sound.firsts stepped
  have isSent : ∀ sent ∈ (link.reporter.sends action).toList.map fun message => (⟨message, reporter.budgets⟩ : Sent),
      sent.Faithful ∧ sent.ledger = reporter.budgets := by
    intro sent inside
    obtain ⟨message, made, rfl⟩ := List.mem_map.mp inside
    exact ⟨UsageReporter.sends_faithful stepped (Option.mem_toList.mp made), rfl⟩
  refine ⟨firsts, ?_, ?_⟩
  · intro sent inside
    rcases List.mem_append.mp inside with before | new
    · exact sound.faithful sent before
    · exact (isSent sent new).1
  · intro sent inside spender carried
    rcases List.mem_append.mp inside with before | new
    · exact noteFirst_of_some (sound.carried sent before spender carried) action
    · obtain ⟨faithful, ledger⟩ := isSent sent new
      obtain ⟨entry, seen, capped, -⟩ := faithful.entries spender carried
      show link.noteFirst action spender.1 = _
      rw [← firsts, NodeBudgets.storedCap_entry (ledger ▸ seen), capped]

end NodeLink

namespace UsageLedger

/-- Every process of the fleet is sound. -/
def Sound (s : UsageLedger) : Prop := ∀ (node : String) (link : NodeLink), s.links[node]? = some link → link.Sound

theorem new_sound : new.Sound := by
  intro node link found
  simp [new] at found

theorem Sound.insert {s : UsageLedger} (sound : s.Sound) (node : String) {link : NodeLink} (isSound : link.Sound)
    {links : Std.TreeMap String NodeLink} (inserted : links = s.links.insert node link) (other : String)
    (found : NodeLink) (stored : links[other]? = some found) : found.Sound := by
  subst inserted
  by_cases same : node = other
  · subst same
    rw [Std.TreeMap.getElem?_insert_self, Option.some.injEq] at stored
    exact stored ▸ isSound
  · rw [Std.TreeMap.getElem?_insert, if_neg (by simpa using same)] at stored
    exact sound other found stored

/-- What one step can do. -/
inductive Moved (s : UsageLedger) : Action → UsageLedger → Prop where
  | started (node : String) : Moved s (.start node) { s with links := s.links.insert node (.start node) }
  | acted {node : String} {action : UsageReporter.Action} {link next : NodeLink} (found : s.links[node]? = some link)
      (acts : link.act action = some next) :
      Moved s (.node node action) { s with links := s.links.insert node next }
  | ingested {node : String} {link : NodeLink} {sent : Sent} {rest : List Sent} (found : s.links[node]? = some link)
      (wire : link.wire = sent :: rest) :
      Moved s (.ingest node)
        { links := s.links.insert node { link with wire := rest }
          ledger := ingestUsage s.ledger node sent.message.spenders
          heard := s.heard ++ link.heardIn sent.message }
  | lost {node : String} {link : NodeLink} (found : s.links[node]? = some link) :
      Moved s (.lose node) { s with links := s.links.insert node link.lose }
  | forgot (node : String) : Moved s (.forget node) { s with ledger := s.ledger.forgetNode node }

theorem step_moved {s t : UsageLedger} {action : Action} (stepped : s.step action = some t) : s.Moved action t := by
  cases action with
  | start node =>
    obtain rfl := Option.some.inj stepped
    exact .started node
  | node node action =>
    simp only [step] at stepped
    split at stepped
    · cases stepped
    · rename_i link found
      obtain ⟨next, acts, rfl⟩ := Option.map_eq_some_iff.mp stepped
      exact .acted found acts
  | ingest node =>
    simp only [step] at stepped
    split at stepped
    · cases stepped
    · rename_i link found
      split at stepped
      · cases stepped
      · rename_i sent rest wire
        obtain rfl := Option.some.inj stepped
        exact .ingested found wire
  | lose node =>
    simp only [step] at stepped
    split at stepped
    · cases stepped
    · rename_i link found
      obtain rfl := Option.some.inj stepped
      exact .lost found
  | forget node =>
    obtain rfl := Option.some.inj stepped
    exact .forgot node

theorem sound_preserved : Runs.Preserves step Sound := by
  intro s action t sound stepped
  cases step_moved stepped with
  | started node => exact sound.insert node (NodeLink.start_sound node) rfl
  | @acted node action link next found acts => exact sound.insert node ((sound node link found).act acts) rfl
  | @ingested node link sent rest found wire =>
    have before := sound node link found
    have taken : NodeLink.Sound { link with wire := rest } := by
      refine ⟨before.firsts, ?_, ?_⟩
      · exact fun other inside => before.faithful other (wire ▸ List.mem_cons_of_mem _ inside)
      · exact fun other inside => before.carried other (wire ▸ List.mem_cons_of_mem _ inside)
    exact sound.insert node taken rfl
  | @lost node link found => exact sound.insert node (sound node link found).lose rfl
  | forgot node => exact sound

/-! ### Agreement of the figures -/

/-- A usage report, with the node's ledger as it was when the report was made. -/
structure Report where
  node : String
  spenders : List (CapId × Nat × Nat)
  ledger : NodeBudgets

/-- The usage report that the control plane ingests in a step. -/
def ingested (s : UsageLedger) : Action → Option Report
  | .ingest node =>
    match (s.links[node]?).bind (·.wire.head?) with
    | some ⟨.usage spenders, ledger⟩ => some ⟨node, spenders, ledger⟩
    | _ => none
  | _ => none

/-- After a usage report has been ingested, the control plane's figure of each value that the node caps is what the
    node had spent in its window when it made the report. -/
def Agrees (s : UsageLedger) (action : Action) : Prop :=
  ∀ report ∈ s.ingested action, ∀ t, s.step action = some t →
    ∀ (id : CapId) (entry : Entry), report.ledger.inner[id]? = some entry → entry.budget.cap.isSome = true →
      t.ledger.figure report.node id = entry.budget.spent

/-- When a usage report is ingested, the control plane has no spend on record for a value that the node caps and
    had no spend on when it made the report. -/
def NothingLeft (s : UsageLedger) (action : Action) : Prop :=
  ∀ report ∈ s.ingested action, ∀ (id : CapId) (entry : Entry), report.ledger.inner[id]? = some entry →
    entry.budget.cap.isSome = true → entry.budget.spent = 0 → s.ledger.figure report.node id = 0

theorem ingested_spec {s : UsageLedger} {action : Action} {report : Report}
    (ingests : s.ingested action = some report) :
    ∃ link rest, s.links[report.node]? = some link ∧
      link.wire = ⟨.usage report.spenders, report.ledger⟩ :: rest ∧
      ∃ t, s.step action = some t ∧ t.ledger = ingestUsage s.ledger report.node report.spenders := by
  cases action with
  | ingest node =>
    simp only [ingested] at ingests
    split at ingests
    · rename_i spenders ledger next
      cases ingests
      obtain ⟨link, found, head⟩ := Option.bind_eq_some_iff.mp next
      obtain ⟨rest, wire⟩ := List.head?_eq_some_iff.mp head
      exact ⟨link, rest, found, wire, _, by simp only [step, found, wire]; rfl, rfl⟩
    · cases ingests
  | start node => cases ingests
  | node node action => cases ingests
  | lose node => cases ingests
  | forget node => cases ingests

/-- A report sets the figure of every spender it carries and leaves the others, so it is right exactly where those
    it leaves out are at zero already. -/
theorem agrees_iff {s : UsageLedger} (sound : s.Sound) (action : Action) : s.Agrees action ↔ s.NothingLeft action := by
  have figures : ∀ (report : Report) (t : UsageLedger), s.ingested action = some report → s.step action = some t →
      ∀ (id : CapId) (entry : Entry), report.ledger.inner[id]? = some entry → entry.budget.cap.isSome = true →
        t.ledger.figure report.node id =
          if entry.budget.spent = 0 then s.ledger.figure report.node id else entry.budget.spent := by
    intro report t ingests stepped id entry seen capped
    obtain ⟨link, rest, found, wire, u, advanced, ledger⟩ := ingested_spec ingests
    rw [stepped, Option.some.injEq] at advanced
    subst advanced
    have faithful := (sound report.node link found).faithful _ (wire ▸ List.mem_cons_self)
    have atEntry : ∀ spender ∈ report.spenders, spender.1 = id →
        entry.budget.cap = some spender.2.1 ∧ spender.2.2 = entry.budget.spent := by
      intro spender inside same
      obtain ⟨other, again, stored, spent⟩ := faithful.entries spender inside
      rw [same, seen, Option.some.injEq] at again
      subst again
      exact ⟨stored, spent.symm⟩
    rw [ledger]
    by_cases unspent : entry.budget.spent = 0
    · rw [if_pos unspent]
      refine ingestUsage_figure_absent s.ledger report.node id ?_
      rintro ⟨other, cap, tokens⟩ inside rfl
      obtain ⟨stored, rfl⟩ := atEntry _ inside rfl
      exact (faithful.usage report.spenders rfl other entry cap seen stored).mp inside unspent
    · rw [if_neg unspent]
      obtain ⟨cap, stored⟩ := Option.isSome_iff_exists.mp capped
      have carried := (faithful.usage report.spenders rfl id entry cap seen stored).mpr unspent
      exact ingestUsage_figure_carried s.ledger report.node ⟨_, carried, rfl⟩
        fun spender inside same => (atEntry spender inside same).2
  constructor
  · intro agrees report ingests id entry seen capped unspent
    obtain ⟨-, -, -, -, t, stepped, -⟩ := ingested_spec ingests
    have figure := figures report t ingests stepped id entry seen capped
    rw [if_pos unspent, agrees report ingests t stepped id entry seen capped] at figure
    rw [← figure, unspent]
  · intro nothing report ingests t stepped id entry seen capped
    rw [figures report t ingests stepped id entry seen capped]
    by_cases unspent : entry.budget.spent = 0
    · rw [if_pos unspent, nothing report ingests id entry seen capped unspent, unspent]
    · rw [if_neg unspent]

/-- In every run of the fleet, each usage report leaves the control plane with the node's spend exactly when no
    report is ingested while the control plane still has spend on record for a value that was back at zero. -/
theorem reports_agree_iff (as : List Action) :
    (∀ before action after s, as = before ++ action :: after → Runs.exec step new before = some s →
      s.Agrees action) ↔ Runs.Along step NothingLeft new as := by
  rw [Runs.along_iff_steps]
  constructor
  · intro agrees before action after s parts reached
    have sound := Runs.exec_preserves sound_preserved new_sound reached
    exact (agrees_iff sound action).mp (agrees before action after s parts reached)
  · intro nothing before action after s parts reached
    have sound := Runs.exec_preserves sound_preserved new_sound reached
    exact (agrees_iff sound action).mpr (nothing before action after s parts reached)

/-- A minute's spend of 60 tokens is reported; a minute later nothing has been spent on that value, and the next
    report, for another value, leaves the 60 tokens on record. -/
theorem rollover_leaves_old_figure :
    ¬ ∀ (as before : List Action) (action : Action) (after : List Action) (s : UsageLedger),
        as = before ++ action :: after → Runs.exec step new before = some s → s.Agrees action := by
  intro agrees
  let minute : CapTerms := ⟨100, some .minute, 4 / 5⟩
  let team : CapId := ⟨"team", "ml"⟩
  let before : List Action :=
    [.start "n1", .node "n1" (.call (.meter team (some minute) 60 0)), .node "n1" (.tick 0), .node "n1" (.report 0),
      .ingest "n1", .node "n1" (.call (.meter ⟨"app", "chat"⟩ (some minute) 10 60)), .node "n1" (.tick 60),
      .node "n1" (.report 60)]
  let s := (Runs.exec step new before).getD new
  let t := (s.step (.ingest "n1")).getD new
  have reached : Runs.exec step new before = some s :=
    Runs.exec_eq_getD step new before (by decide +kernel) new
  have stepped : s.step (.ingest "n1") = some t := by
    have enabled : (s.step (.ingest "n1")).isSome = true := by decide +kernel
    obtain ⟨next, found⟩ := Option.isSome_iff_exists.mp enabled
    simp only [t, found, Option.getD_some]
  have atNode : (s.ingested (.ingest "n1")).map (fun report => (report.node, (report.ledger.inner[team]?).map
      fun entry => (entry.budget.cap, entry.budget.spent))) = some ("n1", some (some 100, 0)) := by
    decide +kernel
  have onRecord : t.ledger.figure "n1" team = 60 := by decide +kernel
  obtain ⟨report, ingests, made⟩ := Option.map_eq_some_iff.mp atNode
  simp only [Prod.mk.injEq, Option.map_eq_some_iff] at made
  obtain ⟨node, entry, seen, capped, unspent⟩ := made
  have agreed := agrees _ before (.ingest "n1") [] s rfl reached report ingests t stepped team entry seen
    (by rw [capped]; rfl)
  rw [node, onRecord, unspent] at agreed
  omega

end UsageLedger

end SmallGateway
