import SmallGateway.UsageLedger

/-!
The cap the control plane holds for a value, against the cap the nodes' config composes for it
(`gatewayctl/src/budget.rs`: `observe_cap`, `report_spend`; `gatewayd/src/budget.rs`: `ensure`, `spend_report`). A
process keeps the cap under which it first met the value, and the control plane the largest one that was ever
reported, so the ledger follows the config exactly when the largest cap under which a reporting process first met
the value is the one that is configured now (`ledger_follows_config_iff`).
-/

namespace SmallGateway

open FleetSpend (ingestUsage)

namespace UsageLedger

/-- The largest of the caps listed for a value, zero when there is none. -/
def largest (id : CapId) (caps : List (CapId × Nat)) : Nat :=
  ((caps.filter (·.1 = id)).map (·.2)).foldl max 0

/-- The control plane holds the cap for the value and grants shares of it, when it is not zero, to every node. -/
def HoldsCap (s : UsageLedger) (id : CapId) (cap : Nat) : Prop :=
  (s.ledger.capState id).cap = cap ∧
    (cap ≠ 0 → ∀ node, ∃ allocation ∈ s.ledger.sharesFor node, allocation.id = id ∧ allocation.cap = cap)

/-- The cap of the last request that the node's process metered for the value, and whether the process has made a
    usage report since. A request that is admitted under another cap shows that the config has changed. -/
def standing (node : String) (id : CapId) (as : List Action) : Option (Nat × Bool) :=
  as.foldl
    (fun known action =>
      match action with
      | .start other => if other = node then none else known
      | .node other (.call (.meter key (some t) _ _)) =>
        if other = node ∧ key = id then some (t.cap, false) else known
      | .node other (.call (.admitRequest key (some t) _)) =>
        if other = node ∧ key = id then known.filter (·.1 = t.cap) else known
      | .node other (.report _) => if other = node then known.map fun (cap, _) => (cap, true) else known
      | _ => known)
    none

/-- There are processes; each last metered the value under the cap and has reported since, and all reports have been
    ingested. -/
def SettledOn (s : UsageLedger) (as : List Action) (id : CapId) (cap : Nat) : Prop :=
  s.links.isEmpty = false ∧
    ∀ entry ∈ s.links.toList, entry.2.wire.isEmpty = true ∧ standing entry.1 id as = some (cap, true)

instance (s : UsageLedger) (as : List Action) (id : CapId) (cap : Nat) : Decidable (s.SettledOn as id cap) :=
  inferInstanceAs (Decidable (_ ∧ _))

theorem largest_append (id : CapId) (first second : List (CapId × Nat)) :
    largest id (first ++ second) = ((second.filter (·.1 = id)).map (·.2)).foldl max (largest id first) := by
  simp [largest]

theorem ingestUsage_cap (ledger : FleetBudgets) (nodeId : String) (id : CapId)
    (spenders : List (CapId × Nat × Nat)) :
    ((ingestUsage ledger nodeId spenders).capState id).cap =
      ((spenders.filter (·.1 = id)).map (·.2.1)).foldl max (ledger.capState id).cap := by
  unfold ingestUsage
  induction spenders generalizing ledger with
  | nil => rfl
  | cons first rest ih =>
    rw [List.foldl_cons, ih, FleetBudgets.reportSpend_capState_cap]
    by_cases same : first.1 = id
    · simp [same]
    · simp [same, Ne.symm same]

/-- A message carries each value with the cap under which its process first met the value. -/
theorem heardIn_eq {link : NodeLink} (sound : link.Sound) {sent : Sent} (inside : sent ∈ link.wire) :
    link.heardIn sent.message = sent.message.spenders.map fun spender => (spender.1, spender.2.1) := by
  have carried := sound.carried sent inside
  unfold NodeLink.heardIn
  rw [← List.filterMap_eq_map]
  refine List.filterMap_congr fun spender member => ?_
  simp [carried spender member]

/-- The control plane holds the largest cap that it has heard. -/
def LedgerHeard (s : UsageLedger) : Prop := ∀ id, (s.ledger.capState id).cap = largest id s.heard

theorem ledgerHeard_preserved : Runs.Preserves step fun s => s.Sound ∧ s.LedgerHeard := by
  rintro s action t ⟨sound, heard⟩ stepped
  refine ⟨sound_preserved s action t sound stepped, ?_⟩
  cases step_moved stepped with
  | started node => exact heard
  | acted found acts => exact heard
  | @ingested node link sent rest found wire =>
    intro id
    have inside : sent ∈ link.wire := wire ▸ List.mem_cons_self
    rw [ingestUsage_cap, heard id, largest_append, heardIn_eq (sound node link found) inside, List.filter_map,
      List.map_map]
    rfl
  | lost found => exact heard
  | forgot node =>
    intro id
    rw [FleetBudgets.forgetNode_cap, heard id]

/-- A known cap that is not zero is granted to every node that asks. -/
theorem granted_of_cap {ledger : FleetBudgets} {id : CapId} {cap : Nat} (known : (ledger.capState id).cap = cap)
    (capped : cap ≠ 0) (node : String) :
    ∃ allocation ∈ ledger.sharesFor node, allocation.id = id ∧ allocation.cap = cap := by
  unfold FleetBudgets.capState at known
  cases stored : ledger.caps[id]? with
  | none => simp [stored, CapState.default, capped.symm] at known
  | some entry =>
    rw [stored, Option.getD_some] at known
    refine ⟨⟨id, entry.cap, FleetBudgets.shareForNode node entry⟩, List.mem_filterMap.mpr ⟨(id, entry), ?_, ?_⟩,
      rfl, known⟩
    · exact Std.TreeMap.mem_toList_iff_getElem?_eq_some.mpr stored
    · simp [known, capped]

/-- The control plane holds a cap exactly when it is the largest one under which a process whose reports were
    ingested first met the value. -/
theorem holdsCap_iff {as : List Action} {s : UsageLedger} (executed : Runs.exec step new as = some s)
    (id : CapId) (cap : Nat) : s.HoldsCap id cap ↔ largest id s.heard = cap := by
  have initial : new.Sound ∧ new.LedgerHeard := by
    refine ⟨new_sound, fun id => ?_⟩
    simp [new, FleetBudgets.new, FleetBudgets.capState, CapState.default, largest]
  obtain ⟨-, heard⟩ := Runs.exec_preserves ledgerHeard_preserved initial executed
  rw [← heard id]
  constructor
  · rintro ⟨held, -⟩
    exact held
  · intro held
    exact ⟨held, granted_of_cap held⟩

/-- In every state that a run reaches, whatever the config changes on the way, the control plane holds a cap for a
    value and grants shares of it exactly when it is the largest cap under which a process whose reports were
    ingested first met the value. This is so in particular where every process serves a config that composes the
    cap, has metered a request under it and has reported (`SettledOn`). -/
theorem ledger_follows_config_iff {as : List Action} {s : UsageLedger} (executed : Runs.exec step new as = some s)
    (id : CapId) (cap : Nat) : s.HoldsCap id cap ↔ largest id s.heard = cap :=
  holdsCap_iff executed id cap

/-- A request of the one node for `team=ml` under a cap, and a tick whose report is ingested. -/
def meterAndReport (cap : Nat) : List Action :=
  [.node "n1" (.call (.meter ⟨"team", "ml"⟩ (some ⟨cap, none, 4 / 5⟩) 10 0)), .node "n1" (.tick 0),
    .node "n1" (.report 0), .ingest "n1"]

/-- A process that always met the value under a cap of 100. -/
theorem ledger_follows_unchanged_cap :
    let as := Action.start "n1" :: (meterAndReport 100 ++ meterAndReport 100)
    let s := (Runs.exec step new as).getD new
    s.SettledOn as ⟨"team", "ml"⟩ 100 ∧ s.HoldsCap ⟨"team", "ml"⟩ 100 := by
  intro as s
  have executed : Runs.exec step new as = some s := Runs.exec_eq_getD step new as (by decide +kernel) new
  have settled : s.SettledOn as ⟨"team", "ml"⟩ 100 := by decide +kernel
  have first : largest ⟨"team", "ml"⟩ s.heard = 100 := by decide +kernel
  exact ⟨settled, (ledger_follows_config_iff executed ⟨"team", "ml"⟩ 100).mpr first⟩

/-- After the config lowers the cap from 100 to 50 the ledger still holds 100. -/
theorem lowered_cap_not_followed :
    ¬ ∀ (as : List Action) (s : UsageLedger), Runs.exec step new as = some s → ∀ (id : CapId) (cap : Nat),
        s.SettledOn as id cap → s.HoldsCap id cap := by
  intro follows
  let as := Action.start "n1" :: (meterAndReport 100 ++ meterAndReport 50)
  let s := (Runs.exec step new as).getD new
  have executed : Runs.exec step new as = some s := Runs.exec_eq_getD step new as (by decide +kernel) new
  have settled : s.SettledOn as ⟨"team", "ml"⟩ 50 := by decide +kernel
  have held : (s.ledger.capState ⟨"team", "ml"⟩).cap = 100 := by decide +kernel
  have lowered := (follows as s executed ⟨"team", "ml"⟩ 50 settled).1
  rw [held] at lowered
  omega

/-! ### A config that leaves the cap alone -/

/-- A call that names the value names this cap. -/
def NamesCap (id : CapId) (cap : Nat) (_ : UsageLedger) : Action → Prop
  | .node _ (.call op) => ∀ named ∈ op.capsNamed id, named = some cap
  | _ => True

/-- Every process that has met the value met it under this cap, and so were all caps that were heard. -/
structure MetUnder (id : CapId) (cap : Nat) (s : UsageLedger) : Prop where
  links : ∀ (node : String) (link : NodeLink), s.links[node]? = some link → ∀ met ∈ link.first id, met = some cap
  heard : ∀ known ∈ s.heard, known.1 = id → known.2 = cap

theorem MetUnder.insert {id : CapId} {cap : Nat} {s : UsageLedger} (under : s.MetUnder id cap) (node : String)
    {link : NodeLink} (met : ∀ first ∈ link.first id, first = some cap) (other : String) (found : NodeLink)
    (stored : (s.links.insert node link)[other]? = some found) : ∀ first ∈ found.first id, first = some cap := by
  by_cases same : node = other
  · subst same
    rw [Std.TreeMap.getElem?_insert_self, Option.some.injEq] at stored
    exact stored ▸ met
  · rw [Std.TreeMap.getElem?_insert, if_neg (by simpa using same)] at stored
    exact under.links other found stored

theorem metUnder_preserved (id : CapId) (cap : Nat) :
    Runs.PreservesWhen step (NamesCap id cap) (MetUnder id cap) := by
  intro s action t under named stepped
  cases step_moved stepped with
  | started node => exact ⟨under.insert node (by simp [NodeLink.start]), under.heard⟩
  | @acted node action link next found acts =>
    obtain ⟨reporter, -, rfl⟩ := Option.map_eq_some_iff.mp acts
    refine ⟨under.insert node ?_, under.heard⟩
    have before := under.links node link found
    intro first isFirst
    cases action with
    | call op =>
      rcases Option.or_eq_some_iff.mp isFirst with already | ⟨-, now⟩
      · exact before first already
      · exact named first (List.mem_of_mem_head? now)
    | tick nowUnix => exact before first isFirst
    | report nowUnix => exact before first isFirst
  | @ingested node link sent rest found wire =>
    have before := under.links node link found
    refine ⟨under.insert node before, fun known inside same => ?_⟩
    rcases List.mem_append.mp inside with already | now
    · exact under.heard known already same
    · obtain ⟨spender, -, made⟩ := List.mem_filterMap.mp now
      obtain ⟨met, first, rfl⟩ := Option.map_eq_some_iff.mp made
      obtain rfl : spender.1 = id := same
      exact Option.some.inj (before (some met) (Option.join_eq_some_iff.mp first))
  | @lost node link found => exact ⟨under.insert node (under.links node link found), under.heard⟩
  | forgot node => exact ⟨under.links, under.heard⟩

/-- The largest of some copies of one number is that number. -/
theorem foldl_max_of_all {caps : List Nat} {cap first : Nat} (all : ∀ known ∈ caps, known = cap) (below : first ≤ cap)
    (some : caps ≠ []) : caps.foldl max first = cap := by
  induction caps generalizing first with
  | nil => exact absurd rfl some
  | cons known rest ih =>
    obtain rfl := all known List.mem_cons_self
    rw [List.foldl_cons, Nat.max_eq_right below]
    cases rest with
    | nil => rfl
    | cons next rest =>
      exact ih (fun other inside => all other (List.mem_cons_of_mem _ inside)) (Nat.le_refl known) (by simp)

/-- While every request and grant for a value names one cap, the control plane holds that cap from the first report
    of the value on. -/
theorem unchanged_cap_held {as : List Action} {s : UsageLedger} {id : CapId} {cap : Nat}
    (unchanged : Runs.Along step (NamesCap id cap) new as) (executed : Runs.exec step new as = some s)
    (reported : ∃ known ∈ s.heard, known.1 = id) : s.HoldsCap id cap := by
  have initial : new.MetUnder id cap := by
    refine ⟨fun node link found => ?_, by simp [new]⟩
    simp [new] at found
  have under := Runs.exec_preserves_along (metUnder_preserved id cap) initial unchanged executed
  rw [holdsCap_iff executed]
  obtain ⟨known, inside, same⟩ := reported
  have all : ∀ heard ∈ (s.heard.filter (·.1 = id)).map (·.2), heard = cap := by
    intro heard member
    obtain ⟨other, isHeard, rfl⟩ := List.mem_map.mp member
    obtain ⟨isHeard, named⟩ := List.mem_filter.mp isHeard
    exact under.heard other isHeard (by simpa using named)
  have some : (s.heard.filter (·.1 = id)).map (·.2) ≠ [] :=
    List.ne_nil_of_mem (List.mem_map.mpr ⟨known, List.mem_filter.mpr ⟨inside, by simpa using same⟩, rfl⟩)
  exact foldl_max_of_all all (Nat.zero_le cap) some

end UsageLedger

end SmallGateway
