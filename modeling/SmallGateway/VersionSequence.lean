import Mathlib.Tactic.Common
import SmallGateway.Lib.Runs
import SmallGateway.Reload

/-!
The versions that become active on a node (`gateway-core/src/snapshot.rs`, `gatewayd/src/reload.rs`), over any sequence
of reload triggers. A version is stamped when a config text validates, before the swap hook is asked. So a config that
the hook refuses takes a number that is never served, and the next swap skips it: the versions are without gaps exactly
when no config is swapped in after the hook has refused one (`gap_free_iff`).
-/

namespace SmallGateway

variable {Config Bound : Type*}

/-- What a reload meets: the text it is given, a file that cannot be read, or no file at all on a node that has none;
    and what the swap hook says to the snapshot of that text. -/
structure ReloadTrigger (Config Bound : Type*) where
  read : Option (Except String String)
  hook : Nat → Snapshot Config → Except String Bound

namespace Reloader

/-- One trigger, under the lock. -/
def reload (texts : ConfigTexts Config) (reloader : Reloader Config) (trigger : ReloadTrigger Config Bound) :
    Reloader Config × ReloadOutcome :=
  match trigger.read with
  | none => (reloader, .noOp reloader.shared.version)
  | some (.error _) => (reloader, .rejected reloader.shared.version)
  | some (.ok text) => reloader.reloadFromText texts trigger.hook text

/-- What the hook says, where the trigger gets that far: its text is not the active one, and validates. -/
def hookAnswer (texts : ConfigTexts Config) (reloader : Reloader Config) (trigger : ReloadTrigger Config Bound) :
    Option (Except String Bound) :=
  match trigger.read with
  | some (.ok text) =>
    if texts.contentHash text = reloader.shared.contentHash then none
    else
      match renderText texts reloader.rendered text with
      | .error _ => none
      | .ok (next, _) => some (trigger.hook reloader.shared.version next)
  | _ => none

/-- A trigger that does not get to the hook leaves everything. One that the hook refuses takes a version number, and one
    that it accepts is served under the next number. -/
theorem reload_cases (texts : ConfigTexts Config) (reloader : Reloader Config) (trigger : ReloadTrigger Config Bound) :
    (reloader.hookAnswer texts trigger = none ∧
        (reloader.reload texts trigger = (reloader, .noOp reloader.shared.version) ∨
          reloader.reload texts trigger = (reloader, .rejected reloader.shared.version))) ∨
      (∃ reason, reloader.hookAnswer texts trigger = some (.error reason) ∧ reloader.reload texts trigger =
        (⟨reloader.shared, reloader.rendered + 1⟩, .rejected reloader.shared.version)) ∨
      ∃ bound next, reloader.hookAnswer texts trigger = some (.ok bound) ∧ next.version = reloader.rendered + 1 ∧
        reloader.reload texts trigger =
          (⟨next, reloader.rendered + 1⟩, .swapped reloader.shared.version next.version) := by
  unfold reload hookAnswer
  cases trigger.read with
  | none => exact .inl ⟨rfl, .inl rfl⟩
  | some result =>
    cases result with
    | error e => exact .inl ⟨rfl, .inr rfl⟩
    | ok text =>
      dsimp only
      unfold reloadFromText Reloader.begin
      by_cases same : texts.contentHash text = reloader.shared.contentHash
      · rw [if_pos same, if_pos same]
        exact .inl ⟨rfl, .inl rfl⟩
      rw [if_neg same, if_neg same]
      cases renders : renderText texts reloader.rendered text with
      | error e => exact .inl ⟨rfl, .inr rfl⟩
      | ok stamped =>
        obtain ⟨next, rendered⟩ := stamped
        obtain ⟨-, version, -, rfl⟩ := renderText_spec renders
        dsimp only
        cases hooked : trigger.hook reloader.shared.version next with
        | error reason => exact .inr (.inl ⟨reason, rfl, rfl⟩)
        | ok bound => exact .inr (.inr ⟨bound, next, rfl, version, rfl⟩)

end Reloader

/-- A node's reloader, with the versions that became active so far, and whether the hook has refused a config since the
    last of them. -/
structure VersionLog (Config : Type*) where
  reloader : Reloader Config
  versions : List Nat
  refused : Bool

namespace VersionLog

def start (reloader : Reloader Config) : VersionLog Config := ⟨reloader, [reloader.shared.version], false⟩

def step (texts : ConfigTexts Config) (log : VersionLog Config) (trigger : ReloadTrigger Config Bound) :
    Option (VersionLog Config) :=
  let result := log.reloader.reload texts trigger
  some {
    reloader := result.1
    versions := match result.2 with
      | .swapped _ new => log.versions ++ [new]
      | _ => log.versions
    refused := match log.reloader.hookAnswer texts trigger with
      | none => log.refused
      | some (.error _) => true
      | some (.ok _) => false }

/-- The trigger either serves the next version, or leaves the snapshot that is served. -/
def InSequence (texts : ConfigTexts Config) (log : VersionLog Config) (trigger : ReloadTrigger Config Bound) : Prop :=
  let result := log.reloader.reload texts trigger
  match result.2 with
  | .swapped old new => old = log.reloader.shared.version ∧ new = result.1.shared.version ∧ new = old + 1
  | .noOp active | .rejected active => active = log.reloader.shared.version ∧ result.1.shared = log.reloader.shared

/-- The trigger is not swapped in after one that the hook refused. -/
def UnskippedSwap (texts : ConfigTexts Config) (log : VersionLog Config) (trigger : ReloadTrigger Config Bound) : Prop :=
  ∀ bound, log.reloader.hookAnswer texts trigger = some (.ok bound) → log.refused = false

instance (texts : ConfigTexts Config) (log : VersionLog Config) (trigger : ReloadTrigger Config Bound) :
    Decidable (log.UnskippedSwap texts trigger) :=
  match answer : log.reloader.hookAnswer texts trigger with
  | some (.ok bound) =>
    decidable_of_iff (log.refused = false)
      ⟨fun current _ _ => current, fun unskipped => unskipped bound answer⟩
  | some (.error reason) => isTrue fun bound accepted => by simp [answer] at accepted
  | none => isTrue fun bound accepted => by simp [answer] at accepted

/-- What a trigger leaves, by how far it gets. -/
theorem step_cases {texts : ConfigTexts Config} {log after : VersionLog Config} {trigger : ReloadTrigger Config Bound}
    (stepped : step texts log trigger = some after) :
    (log.reloader.hookAnswer texts trigger = none ∧ after = log ∧ log.InSequence texts trigger) ∨
      (∃ reason, log.reloader.hookAnswer texts trigger = some (.error reason) ∧ log.InSequence texts trigger ∧
        after = ⟨⟨log.reloader.shared, log.reloader.rendered + 1⟩, log.versions, true⟩) ∨
      ∃ bound next, log.reloader.hookAnswer texts trigger = some (.ok bound) ∧
        next.version = log.reloader.rendered + 1 ∧
        (log.InSequence texts trigger ↔ next.version = log.reloader.shared.version + 1) ∧
        after = ⟨⟨next, log.reloader.rendered + 1⟩, log.versions ++ [next.version], false⟩ := by
  obtain rfl := Option.some.inj stepped
  unfold InSequence
  rcases log.reloader.reload_cases texts trigger with
    ⟨answer, nothing | nothing⟩ | ⟨reason, answer, refusal⟩ | ⟨bound, next, answer, version, swap⟩
  · rw [answer, nothing]
    exact .inl ⟨rfl, rfl, rfl, rfl⟩
  · rw [answer, nothing]
    exact .inl ⟨rfl, rfl, rfl, rfl⟩
  · rw [answer, refusal]
    exact .inr (.inl ⟨reason, rfl, ⟨rfl, rfl⟩, rfl⟩)
  · rw [answer, swap]
    exact .inr (.inr ⟨bound, next, rfl, version, by simp, rfl⟩)

/-- The counter is ahead of the version that is served exactly when the hook has refused a config since. -/
structure Counted (log : VersionLog Config) : Prop where
  behind : log.reloader.shared.version ≤ log.reloader.rendered
  refused : log.refused = false ↔ log.reloader.rendered = log.reloader.shared.version

theorem counted_start {texts : ConfigTexts Config} {text : String} {reloader : Reloader Config}
    (boots : Reloader.bootstrap texts text = .ok reloader) : (start reloader).Counted := by
  obtain ⟨-, version, -, rendered⟩ := Reloader.bootstrap_spec boots
  have same : reloader.rendered = reloader.shared.version := rendered.trans version.symm
  exact ⟨Nat.le_of_eq same.symm, iff_of_true rfl same⟩

theorem counted_step (texts : ConfigTexts Config) (log : VersionLog Config) (trigger : ReloadTrigger Config Bound)
    (after : VersionLog Config) (counted : log.Counted) (stepped : step texts log trigger = some after) :
    after.Counted := by
  have behind := counted.behind
  rcases step_cases stepped with ⟨-, rfl, -⟩ | ⟨reason, -, -, rfl⟩ | ⟨bound, next, -, version, -, rfl⟩
  · exact counted
  · refine ⟨Nat.le_succ_of_le behind, iff_of_false (by simp) ?_⟩
    dsimp only
    omega
  · exact ⟨Nat.le_of_eq version, iff_of_true rfl version.symm⟩

/-- A swap is in sequence exactly when the hook refused nothing since the last one. -/
theorem inSequence_iff (texts : ConfigTexts Config) (log : VersionLog Config) (trigger : ReloadTrigger Config Bound)
    (after : VersionLog Config) (counted : log.Counted) (stepped : step texts log trigger = some after) :
    log.InSequence texts trigger ↔ log.UnskippedSwap texts trigger := by
  unfold UnskippedSwap
  rcases step_cases stepped with ⟨answer, -, sequence⟩ | ⟨reason, answer, sequence, -⟩ | ⟨bound, next, answer, version,
    sequence, -⟩
  · exact iff_of_true sequence fun bound accepted => by simp [answer] at accepted
  · exact iff_of_true sequence fun bound accepted => by simp [answer] at accepted
  · rw [sequence, counted.refused, version]
    constructor
    · intro next _ _
      omega
    · intro current
      rw [current bound answer]

/-- The versions so far are all numbers up to the one that is served. -/
structure GapFree (log : VersionLog Config) : Prop where
  versions : log.versions = List.range' 1 log.reloader.shared.version

theorem gapFree_step (texts : ConfigTexts Config) :
    Runs.PreservesWhen (@step Config Bound texts) (InSequence texts) GapFree := by
  intro log trigger after gapFree sequence stepped
  rcases step_cases stepped with ⟨-, rfl, -⟩ | ⟨reason, -, -, rfl⟩ | ⟨bound, next, -, -, next_iff, rfl⟩
  · exact gapFree
  · exact ⟨gapFree.versions⟩
  · refine ⟨?_⟩
    dsimp only
    rw [next_iff.mp sequence, gapFree.versions, List.range'_concat, Nat.one_mul, Nat.add_comm 1]

/-- Over every sequence of reloads, whatever each of them loads, validates and hears from the hook: each swap serves the
    next version and every other reload leaves the snapshot that is served, so that the versions that became active are
    the numbers from one on without a gap, if and only if no config is swapped in when the hook has refused one since
    the last swap. -/
theorem gap_free_iff (texts : ConfigTexts Config) (text : String) (reloader : Reloader Config)
    (boots : Reloader.bootstrap texts text = .ok reloader) (triggers : List (ReloadTrigger Config Bound))
    (log : VersionLog Config) (executed : Runs.exec (step texts) (start reloader) triggers = some log) :
    (Runs.Along (step texts) (InSequence texts) (start reloader) triggers ∧
        log.versions = List.range' 1 log.versions.length) ↔
      Runs.Along (step texts) (UnskippedSwap texts) (start reloader) triggers := by
  have same : Runs.Along (step texts) (InSequence texts) (start reloader) triggers ↔
      Runs.Along (step texts) (UnskippedSwap texts) (start reloader) triggers :=
    Runs.along_congr_along (fun log trigger after counted _ => counted_step texts log trigger after counted)
      (fun log trigger after counted _ => inSequence_iff texts log trigger after counted) (counted_start boots)
      (Runs.along_of_forall fun _ _ _ => trivial : Runs.Along (step texts) (fun _ _ => True) _ _) executed
  rw [← same, and_iff_left_iff_imp]
  intro sequence
  have first : (start reloader).GapFree := by
    obtain ⟨-, version, -, -⟩ := Reloader.bootstrap_spec boots
    exact ⟨by simp [start, version]⟩
  have gapFree := Runs.exec_preserves_along (gapFree_step texts) first sequence executed
  rw [gapFree.versions, List.length_range']

/-- A config is its text, and every text but the empty one is a config. -/
def plainTexts : ConfigTexts String where
  fromYaml text := if text = "" then .error "no config" else .ok text
  contentHash := id

def swaps (text : String) : ReloadTrigger String Unit := ⟨some (.ok text), fun _ _ => .ok ()⟩

def refuses (text : String) : ReloadTrigger String Unit := ⟨some (.ok text), fun _ _ => .error "module load failed"⟩

def firstServed : Reloader String := ⟨⟨"a", 1, "a"⟩, 1⟩

/-- A swap, a file that cannot be read, a config that does not validate, another swap, and a config that the hook
    refuses: the versions are one, two and three. -/
theorem refused_last_gap_free :
    Runs.Along (step plainTexts) (InSequence plainTexts) (start firstServed)
        [swaps "b", ⟨some (.error "unreadable"), fun _ _ => .ok ()⟩, swaps "", swaps "c", refuses "d"] ∧
      [1, 2, 3] = List.range' 1 3 :=
  (gap_free_iff plainTexts "a" firstServed rfl
    [swaps "b", ⟨some (.error "unreadable"), fun _ _ => .ok ()⟩, swaps "", swaps "c", refuses "d"]
    ⟨⟨⟨"c", 3, "c"⟩, 4⟩, [1, 2, 3], true⟩ rfl).mpr
    (by decide)

/-- After a config that the hook refused, the next one is served under the third version: nothing is ever served under
    the second. -/
theorem refused_swap_skips :
    ¬ ∀ (texts : ConfigTexts String) (text : String) (reloader : Reloader String),
      Reloader.bootstrap texts text = .ok reloader → ∀ (triggers : List (ReloadTrigger String Unit))
        (log : VersionLog String), Runs.exec (step texts) (start reloader) triggers = some log →
          Runs.Along (step texts) (InSequence texts) (start reloader) triggers ∧
            log.versions = List.range' 1 log.versions.length := by
  intro claimed
  have gapFree := (claimed plainTexts "a" firstServed rfl [refuses "b", swaps "c"]
    ⟨⟨⟨"c", 3, "c"⟩, 3⟩, [1, 3], false⟩ rfl).2
  exact absurd gapFree (by decide)

end VersionLog

end SmallGateway
