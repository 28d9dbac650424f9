import SmallGateway.NodeBudgets

/-!
The spend of a billing window on a node (`gatewayd/src/budget.rs`: `Entry::roll`, `Entry::sync_terms`). What a counter
ought to hold is written down as a tally that starts over when a call comes in a strictly later window, or composes
another kind of window. The counter of an entry starts over whenever the window of a call is not the one it is in, so
it holds the tally as long as no call carries the time of an earlier window (`counter_is_tally`), and then tokens stay
until a call comes in a strictly later window or composes another kind (`window_spend_kept`).
-/

namespace SmallGateway

/-- What a spender has spent in the newest window seen. -/
structure Tally where
  window : Option Window
  newest : Nat
  tokens : Nat
  deriving DecidableEq

namespace Tally

def new : Tally := ⟨none, 0, 0⟩

/-- A strictly later window starts the tally over. -/
def advance (tally : Tally) (nowUnix : Nat) : Tally :=
  match tally.window with
  | none => tally
  | some window =>
    if tally.newest < window.idAt nowUnix then { tally with newest := window.idAt nowUnix, tokens := 0 } else tally

/-- Another kind of window starts the tally over, too. -/
def sync (tally : Tally) (kind : Option (Option Window)) (nowUnix : Nat) : Tally :=
  match kind with
  | none => tally.advance nowUnix
  | some window =>
    if tally.window ≠ window then ⟨window, (window.map (·.idAt nowUnix)).getD 0, 0⟩ else tally.advance nowUnix

end Tally

namespace NodeBudgets

/-- Whether a call reads the clock for the spender: the window its terms compose, when it has terms, and the time. -/
def Op.touches (id : CapId) : Op → Option (Option (Option Window) × Nat)
  | .admitRequest other terms nowUnix => if other = id then some (terms.map (·.window), nowUnix) else none
  | .meter other terms _ nowUnix => if other = id then some (terms.map (·.window), nowUnix) else none
  | .settle other _ _ nowUnix => if other = id then some (none, nowUnix) else none
  | .spendReport nowUnix => some (none, nowUnix)
  | .escalating nowUnix => some (none, nowUnix)
  | _ => none

/-- What a call meters or settles on the spender's counter. -/
def Op.counts (id : CapId) (tokens : Nat) : Op → Nat
  | .meter other _ metered _ => if other = id then saturatingAdd tokens metered else tokens
  | .settle other estimated authoritative _ =>
    if other ≠ id then tokens
    else if authoritative ≥ estimated then saturatingAdd tokens (authoritative - estimated)
    else tokens - (estimated - authoritative)
  | _ => tokens

/-- A ledger next to the tally of one spender, which begins with the first call that names the spender. -/
structure Tallied where
  budgets : NodeBudgets
  tally : Option Tally

/-- The tally a call is counted in: the one there is, or a new one when the call names the spender. -/
def Op.begins (id : CapId) (op : Op) (tally : Option Tally) : Option Tally :=
  tally.or ((op.capsNamed id).head?.map fun _ => .new)

def Op.tallies (id : CapId) (op : Op) (tally : Tally) : Tally :=
  let tally := match op.touches id with
    | none => tally
    | some (kind, nowUnix) => tally.sync kind nowUnix
  { tally with tokens := op.counts id tally.tokens }

def Tallied.step (id : CapId) (s : Tallied) (op : Op) : Option Tallied :=
  (s.budgets.step op).map fun budgets => ⟨budgets, (op.begins id s.tally).map (op.tallies id)⟩

/-- A call that keeps to the kind of window of the tally does not carry the time of an earlier window than the newest
    one seen. -/
def Timely (id : CapId) (s : Tallied) (op : Op) : Prop :=
  ∀ tally ∈ s.tally, ∀ touch ∈ op.touches id, (∀ window ∈ touch.1, window = tally.window) →
    ∀ window ∈ tally.window, tally.newest ≤ window.idAt touch.2

instance (id : CapId) (s : Tallied) (op : Op) : Decidable (Timely id s op) := by
  unfold Timely
  infer_instance

end NodeBudgets

namespace Entry

/-- The counter of an entry as a tally. -/
def tally (entry : Entry) : Tally := ⟨entry.window, entry.windowId, entry.budget.spent⟩

/-- A call in no earlier window rolls the entry as it advances the tally. -/
theorem roll_tally {entry : Entry} {nowUnix : Nat}
    (timely : ∀ window ∈ entry.window, entry.windowId ≤ window.idAt nowUnix) :
    (entry.roll nowUnix).tally = entry.tally.advance nowUnix := by
  unfold roll Tally.advance tally
  cases kind : entry.window with
  | none => simp [kind]
  | some window =>
    have later := timely window kind
    by_cases same : window.idAt nowUnix = entry.windowId
    · simp [kind, same]
    · have strictly : entry.windowId < window.idAt nowUnix := by omega
      simp [same, strictly]

theorem syncTerms_tally {entry : Entry} {terms : Option CapTerms} {nowUnix : Nat}
    (timely : (∀ window ∈ terms.map (·.window), window = entry.window) →
      ∀ window ∈ entry.window, entry.windowId ≤ window.idAt nowUnix) :
    (entry.syncTerms terms nowUnix).tally = entry.tally.sync (terms.map (·.window)) nowUnix := by
  cases terms with
  | none => exact roll_tally (timely (by simp))
  | some t =>
    by_cases changed : entry.window ≠ t.window
    · simp [syncTerms, Tally.sync, changed, tally]
    · have same : entry.window = t.window := not_not.mp changed
      have rolled := @roll_tally { entry with alertFraction := t.alertFraction } nowUnix
        (timely (by simp [same]))
      unfold syncTerms Tally.sync
      simp only [Option.map_some, changed, if_false]
      rw [rolled]
      have unchanged : ¬ entry.tally.window ≠ t.window := changed
      rw [if_neg unchanged]
      rfl

end Entry

namespace NodeBudgets

/-- The counter of a spender as a tally, when it has an entry. -/
def tallyOf (budgets : NodeBudgets) (id : CapId) : Option Tally := (budgets.inner[id]?).map (·.tally)

theorem tallyOf_entry {budgets : NodeBudgets} {id : CapId} {entry : Entry}
    (seen : budgets.inner[id]? = some entry) : budgets.tallyOf id = some entry.tally := by
  simp [tallyOf, seen]

theorem tallyOf_congr {before after : NodeBudgets} {id : CapId}
    (same : after.inner[id]? = before.inner[id]?) : after.tallyOf id = before.tallyOf id := by
  simp [tallyOf, same]

/-- A spender without an entry gets one with an empty counter. -/
theorem ensure_tally (budgets : NodeBudgets) (id : CapId) (cap : Option Nat) :
    some (budgets.ensure id cap).tally = (budgets.tallyOf id).or (some .new) := by
  cases seen : budgets.inner[id]? with
  | none => rw [ensure_unseen seen, tallyOf, seen]; rfl
  | some entry => rw [ensure_seen seen, tallyOf_entry seen]; rfl

/-- The tally holds what is on the counter. -/
def Holds (id : CapId) (s : Tallied) : Prop := s.budgets.tallyOf id = s.tally

theorem begins_unnamed {id : CapId} {op : Op} (unnamed : op.capsNamed id = []) (known : Option Tally) :
    op.begins id known = known := by
  simp [Op.begins, unnamed]

/-- A call that does not read the clock for the spender and counts nothing leaves the tally alone. -/
theorem tallies_untouched {id : CapId} {op : Op} (untouched : op.touches id = none)
    (uncounted : ∀ tokens, op.counts id tokens = tokens) (known : Option Tally) :
    known.map (op.tallies id) = known := by
  cases known with
  | none => rfl
  | some tally => simp [Op.tallies, untouched, uncounted]

section

variable {id : CapId} {budgets : NodeBudgets} {s : Tallied}

/-- An entry that a timely call finds or makes. -/
theorem Timely.ensure {op : Op} {kind : Option (Option Window)} {nowUnix : Nat} (timely : Timely id s op)
    (holds : Holds id s) (touched : op.touches id = some (kind, nowUnix)) (cap : Option Nat) :
    (∀ window ∈ kind, window = (s.budgets.ensure id cap).window) →
      ∀ window ∈ (s.budgets.ensure id cap).window,
        (s.budgets.ensure id cap).windowId ≤ window.idAt nowUnix := by
  intro keeps window windowed
  cases seen : s.budgets.inner[id]? with
  | none =>
    rw [ensure_unseen seen] at windowed
    simp [freshEntry] at windowed
  | some entry =>
    rw [ensure_seen seen] at keeps windowed ⊢
    have tally : entry.tally ∈ s.tally := by
      rw [← holds, tallyOf_entry seen]
      rfl
    exact timely entry.tally tally (kind, nowUnix) touched keeps window windowed

/-- A call that names the spender is counted in the tally of the entry that it finds or makes. -/
theorem begins_named (holds : Holds id s) {op : Op} {cap : Option Nat} (named : op.capsNamed id = [cap]) :
    op.begins id s.tally = some (s.budgets.ensure id cap).tally := by
  rw [ensure_tally, holds]
  simp [Op.begins, named]

/-- The tally after a call that names the spender is that of the entry with the terms of the call. -/
theorem tallies_named (holds : Holds id s) {op : Op} (timely : Timely id s op) {terms : Option CapTerms} {nowUnix : Nat}
    (touched : op.touches id = some (terms.map (·.window), nowUnix))
    (named : op.capsNamed id = [terms.map (·.cap)]) :
    (op.begins id s.tally).map (op.tallies id) =
      let synced := ((s.budgets.ensure id (terms.map (·.cap))).syncTerms terms nowUnix).tally
      some { synced with tokens := op.counts id synced.tokens } := by
  have synced := Entry.syncTerms_tally (timely.ensure holds touched (terms.map (·.cap)))
  rw [begins_named holds named, Option.map_some, synced, Op.tallies, touched]

/-- A call for another spender leaves the counter and the tally alone. -/
theorem tallyOf_unnamed (holds : Holds id s) {op : Op} {after : NodeBudgets}
    (same : after.inner[id]? = s.budgets.inner[id]?) (unnamed : op.capsNamed id = [])
    (untouched : op.touches id = none) (uncounted : ∀ tokens, op.counts id tokens = tokens) :
    after.tallyOf id = (op.begins id s.tally).map (op.tallies id) := by
  rw [tallyOf_congr same, holds, begins_unnamed unnamed, tallies_untouched untouched uncounted]

theorem applyShares_tallyOf (grants : List (CapId × Nat × Nat)) (budgets : NodeBudgets) (id : CapId) :
    (budgets.applyShares grants).tallyOf id = (Op.applyShares grants).begins id (budgets.tallyOf id) := by
  refine applyShares_read (fun budgets => budgets.tallyOf id) (fun _ => .new) id ?_ ?_ grants budgets
  · intro budgets granted share
    rw [tallyOf_entry (applyShare_entry budgets id granted share), ← ensure_tally budgets id (some granted)]
    rfl
  · exact fun budgets grant other => tallyOf_congr (applyShare_other budgets grant (Ne.symm other))

theorem rollAll_tallyOf {nowUnix : Nat}
    (timely : ∀ tally ∈ budgets.tallyOf id, ∀ window ∈ tally.window, tally.newest ≤ window.idAt nowUnix) :
    (budgets.rollAll nowUnix).tallyOf id = (budgets.tallyOf id).map (·.advance nowUnix) := by
  cases seen : budgets.inner[id]? with
  | none => simp [tallyOf, rollAll_entry, seen]
  | some entry =>
    rw [tallyOf_entry seen] at timely ⊢
    have rolled : (budgets.rollAll nowUnix).inner[id]? = some (entry.roll nowUnix) := by
      rw [rollAll_entry, seen, Option.map_some]
    rw [tallyOf_entry rolled, Entry.roll_tally (timely entry.tally rfl), Option.map_some]

end

/-- A timely call does to the counter what it does to the tally. -/
theorem holds_preserved (id : CapId) : Runs.PreservesWhen (Tallied.step id) (Timely id) (Holds id) := by
  intro s op t holds timely stepped
  obtain ⟨budgets, called, rfl⟩ := Option.map_eq_some_iff.mp stepped
  show budgets.tallyOf id = (op.begins id s.tally).map (op.tallies id)
  cases op with
  | admitRequest other terms nowUnix =>
    obtain rfl := Option.some.inj called
    by_cases same : other = id
    · subst same
      rw [tallyOf_entry (admit_entry s.budgets other terms nowUnix),
        tallies_named holds timely (if_pos rfl) (if_pos rfl)]
      rfl
    · exact tallyOf_unnamed holds (admit_other s.budgets terms nowUnix (Ne.symm same)) (if_neg same) (if_neg same)
        fun _ => rfl
  | meter other terms tokens nowUnix =>
    obtain rfl := Option.some.inj called
    by_cases same : other = id
    · subst same
      obtain ⟨latch, seen⟩ := meter_entry s.budgets other terms tokens nowUnix
      rw [tallyOf_entry seen, tallies_named holds timely (if_pos rfl) (if_pos rfl)]
      simp only [Op.counts, if_true]
      rfl
    · exact tallyOf_unnamed holds (meter_other s.budgets terms tokens nowUnix (Ne.symm same)) (if_neg same)
        (if_neg same) fun _ => if_neg same
  | settle other estimated authoritative nowUnix =>
    obtain rfl := Option.some.inj called
    by_cases same : other = id
    · subst same
      rw [begins_unnamed rfl, ← holds]
      cases seen : s.budgets.inner[other]? with
      | none => simp [settle_unseen seen, tallyOf, seen]
      | some entry =>
        have touched : (Op.settle other estimated authoritative nowUnix).touches other = some (none, nowUnix) := by
          simp [Op.touches]
        have tally : entry.tally ∈ s.tally := by
          rw [← holds, tallyOf_entry seen]
          rfl
        have rolled := Entry.roll_tally (timely entry.tally tally (none, nowUnix) touched (by simp))
        rw [tallyOf_entry (settle_entry seen estimated authoritative nowUnix), tallyOf_entry seen, Option.map_some]
        simp only [Op.tallies, touched, Op.counts, Tally.sync, ← rolled, ne_eq, not_true_eq_false, if_false,
          Option.some.injEq]
        unfold Entry.tally
        rw [LocalBudget.reconcile_spent]
    · exact tallyOf_unnamed holds (settle_other s.budgets estimated authoritative nowUnix (Ne.symm same)) rfl
        (if_neg same) fun _ => by simp [Op.counts, same]
  | applyShares grants =>
    obtain rfl := Option.some.inj called
    rw [tallies_untouched rfl (fun _ => rfl), ← holds]
    exact applyShares_tallyOf grants s.budgets id
  | setPartitioned on =>
    obtain rfl := Option.some.inj called
    exact tallyOf_unnamed holds rfl rfl rfl fun _ => rfl
  | spendReport nowUnix | escalating nowUnix =>
    obtain rfl := Option.some.inj called
    rw [begins_unnamed rfl, ← holds]
    refine rollAll_tallyOf fun tally isTally => ?_
    exact timely tally (holds ▸ isTally) (none, nowUnix) rfl (by simp)

/-- In every run whose calls for a spender carry no earlier window than the newest one seen, what a counter holds is
    its tally: what was metered and settled since a call last came in a strictly later window or composed another kind
    of window. -/
theorem counter_is_tally {budgets : NodeBudgets} {id : CapId} {ops : List Op} {s : Tallied}
    (timely : Runs.Along (Tallied.step id) (Timely id) ⟨budgets, budgets.tallyOf id⟩ ops)
    (executed : Runs.exec (Tallied.step id) ⟨budgets, budgets.tallyOf id⟩ ops = some s) :
    s.budgets.tallyOf id = s.tally := by
  have initial : Holds id ⟨budgets, budgets.tallyOf id⟩ := rfl
  exact Runs.exec_preserves_along (holds_preserved id) initial timely executed

/-! ### Tokens that stay -/

/-- A call does not come in a strictly later window than the newest one seen. -/
def NotLater (id : CapId) (s : Tallied) (op : Op) : Prop :=
  ∀ tally ∈ s.tally, ∀ touch ∈ op.touches id, ∀ window ∈ tally.window, window.idAt touch.2 ≤ tally.newest

/-- A call does not compose another kind of window. -/
def KeepsKind (id : CapId) (s : Tallied) (op : Op) : Prop :=
  ∀ tally ∈ s.tally, ∀ touch ∈ op.touches id, ∀ window ∈ touch.1, window = tally.window

instance (id : CapId) (s : Tallied) (op : Op) : Decidable (NotLater id s op) := by
  unfold NotLater
  infer_instance

instance (id : CapId) (s : Tallied) (op : Op) : Decidable (KeepsKind id s op) := by
  unfold KeepsKind
  infer_instance

/-- A call that starts nothing over changes the tally by what it counts. -/
theorem tally_kept {id : CapId} {s t : Tallied} {op : Op} {tally : Tally} (known : s.tally = some tally)
    (notLater : NotLater id s op) (keeps : KeepsKind id s op) (stepped : s.step id op = some t) :
    t.tally = some { tally with tokens := op.counts id tally.tokens } := by
  obtain ⟨budgets, -, rfl⟩ := Option.map_eq_some_iff.mp stepped
  have begun : op.begins id s.tally = some tally := by simp [Op.begins, known]
  show (op.begins id s.tally).map (op.tallies id) = _
  rw [begun, Option.map_some]
  unfold Op.tallies
  cases touched : op.touches id with
  | none => rfl
  | some touch =>
    obtain ⟨kind, nowUnix⟩ := touch
    have early := notLater tally known (kind, nowUnix) touched
    have advanced : tally.advance nowUnix = tally := by
      unfold Tally.advance
      cases windowed : tally.window with
      | none => rfl
      | some window =>
        have before := early window windowed
        exact if_neg (Nat.not_lt.mpr before)
    have synced : tally.sync kind nowUnix = tally := by
      cases kind with
      | none => exact advanced
      | some window =>
        have same := keeps tally known (some window, nowUnix) touched window rfl
        simp only [Tally.sync, same, ne_eq, not_true_eq_false, if_false, advanced]
    simp only [synced]

/-- A run of calls that start nothing over changes the tally by what they count. -/
theorem tally_kept_along {id : CapId} {s t : Tallied} {ops : List Op} {tally : Tally} (known : s.tally = some tally)
    (notLater : Runs.Along (Tallied.step id) (NotLater id) s ops)
    (keeps : Runs.Along (Tallied.step id) (KeepsKind id) s ops)
    (executed : Runs.exec (Tallied.step id) s ops = some t) :
    t.tally = some { tally with tokens := ops.foldl (fun tokens op => op.counts id tokens) tally.tokens } := by
  induction ops generalizing s tally with
  | nil =>
    rw [Runs.exec_nil, Option.some.injEq] at executed
    exact executed ▸ known
  | cons op ops ih =>
    obtain ⟨u, stepped, rest⟩ := Runs.exec_cons.mp executed
    have next := tally_kept known notLater.1 keeps.1 stepped
    exact ih next (notLater.2 u stepped) (keeps.2 u stepped) rest

theorem spentOf_tally {budgets : NodeBudgets} {id : CapId} {tally : Tally}
    (held : budgets.tallyOf id = some tally) : budgets.spentOf id = tally.tokens := by
  obtain ⟨entry, seen, rfl⟩ := Option.map_eq_some_iff.mp held
  exact spentOf_entry seen

/-- From any state of a run whose calls for the spender carry no earlier window than the newest one seen, its tokens
    stay on the counter through any further calls, changed only by what these meter and settle, for as long as none
    comes in a strictly later window or composes another kind of window. -/
theorem window_spend_kept {budgets : NodeBudgets} {id : CapId} {ops more : List Op} {s t : Tallied}
    (timely : Runs.Along (Tallied.step id) (Timely id) ⟨budgets, budgets.tallyOf id⟩ (ops ++ more))
    (reached : Runs.exec (Tallied.step id) ⟨budgets, budgets.tallyOf id⟩ ops = some s) (seen : Seen id s.budgets)
    (notLater : Runs.Along (Tallied.step id) (NotLater id) s more)
    (keeps : Runs.Along (Tallied.step id) (KeepsKind id) s more)
    (executed : Runs.exec (Tallied.step id) s more = some t) :
    t.budgets.spentOf id = more.foldl (fun tokens op => op.counts id tokens) (s.budgets.spentOf id) := by
  obtain ⟨before, later⟩ := Runs.along_append.mp timely
  have atStart := counter_is_tally before reached
  have atEnd := Runs.exec_preserves_along (holds_preserved id) atStart (later s reached) executed
  obtain ⟨entry, found⟩ := seen
  have known : s.tally = some entry.tally := by rw [← atStart, tallyOf_entry found]
  have kept := tally_kept_along known notLater keeps executed
  rw [spentOf_tally (atEnd.trans kept), spentOf_entry found]
  rfl

/-- A minute's 60 tokens, and 10 more in the same minute. -/
theorem window_spend_kept_within_minute :
    let minute : CapTerms := ⟨100, some .minute, 4 / 5⟩
    let team : CapId := ⟨"team", "ml"⟩
    let budgets := ((NodeBudgets.new "n1").meter team (some minute) 60 0).2.2
    let start : Tallied := ⟨budgets, budgets.tallyOf team⟩
    let more : List Op := [.meter team (some minute) 10 30, .spendReport 59]
    ((Runs.exec (Tallied.step team) start more).getD start).budgets.spentOf team = 70 := by
  intro minute team budgets start more
  have executed := Runs.exec_eq_getD (Tallied.step team) start more (by decide) start
  have timely : Runs.Along (Tallied.step team) (Timely team) start ([] ++ more) := by decide
  have reached : Runs.exec (Tallied.step team) start [] = some start := rfl
  have notLater : Runs.Along (Tallied.step team) (NotLater team) start more := by decide
  have keeps : Runs.Along (Tallied.step team) (KeepsKind team) start more := by decide
  have seen : Seen team start.budgets := by
    have isSome : (start.budgets.inner[team]?).isSome = true := by decide
    exact Option.isSome_iff_exists.mp isSome
  have spent : start.budgets.spentOf team = 60 := by decide
  have kept := window_spend_kept timely reached seen notLater keeps executed
  rw [spent] at kept
  exact kept

/-- Tokens are erased in the window they were metered in by a call that composes another kind of window, although its
    time is no earlier, and by a call with the time of an earlier window, although its kind of window is the same. -/
theorem tokens_erased_in_their_window :
    (¬ ∀ (budgets : NodeBudgets) (id : CapId) (op : Op) (t : Tallied),
        Tallied.step id ⟨budgets, budgets.tallyOf id⟩ op = some t → NotLater id ⟨budgets, budgets.tallyOf id⟩ op →
        Timely id ⟨budgets, budgets.tallyOf id⟩ op →
          t.budgets.spentOf id = op.counts id (budgets.spentOf id)) ∧
    ¬ ∀ (budgets : NodeBudgets) (id : CapId) (op : Op) (t : Tallied),
        Tallied.step id ⟨budgets, budgets.tallyOf id⟩ op = some t → NotLater id ⟨budgets, budgets.tallyOf id⟩ op →
        KeepsKind id ⟨budgets, budgets.tallyOf id⟩ op →
          t.budgets.spentOf id = op.counts id (budgets.spentOf id) := by
  let team : CapId := ⟨"team", "ml"⟩
  let minute : CapTerms := ⟨100, some .minute, 4 / 5⟩
  let hour : CapTerms := ⟨100, some .hour, 4 / 5⟩
  let budgets := ((NodeBudgets.new "n1").meter team (some minute) 60 60).2.2
  have before : budgets.spentOf team = 60 := by decide
  constructor
  · intro kept
    let after := (budgets.admitRequest team (some hour) 60).2
    have erased : after.spentOf team = 0 := by decide
    have stays := kept budgets team (.admitRequest team (some hour) 60) ⟨after, _⟩ rfl (by decide)
      (by decide)
    rw [before, erased] at stays
    exact absurd stays (by decide)
  · intro kept
    let after := (budgets.admitRequest team (some minute) 59).2
    have erased : after.spentOf team = 0 := by decide
    have stays := kept budgets team (.admitRequest team (some minute) 59) ⟨after, _⟩ rfl (by decide)
      (by decide)
    rw [before, erased] at stays
    exact absurd stays (by decide)

end NodeBudgets

end SmallGateway
