import Mathlib.Data.List.Basic

/-!
Config snapshots and how they change (`gateway-core/src/snapshot.rs`, `gatewayd/src/reload.rs`). Text that
validates becomes a snapshot with the next version; text that does not consumes none. A reload binds under one
lock: the text that is active already changes nothing, the swap hook runs before the snapshot cell advances and
may refuse, and only then does the cell take the new snapshot. A request may bind between the hook and the
store, so the two are separate steps here (`Reloader.begin`, `Reloader.store`); `Reloader.reloadFromText` is
the whole.
-/

namespace SmallGateway

/-- What becomes of a config text: the config it parses and validates to, and the hash of its bytes. -/
structure ConfigTexts (Config : Type*) where
  fromYaml : String → Except String Config
  contentHash : String → String

variable {Config Bound : Type*}

/-- One validated rendering of a config text. -/
structure Snapshot (Config : Type*) where
  config : Config
  version : Nat
  contentHash : String

/-- Validates, then stamps the next version. The second part is the new version counter. -/
def renderText (texts : ConfigTexts Config) (next : Nat) (text : String) :
    Except String (Snapshot Config × Nat) :=
  (texts.fromYaml text).map fun config => (⟨config, next + 1, texts.contentHash text⟩, next + 1)

inductive ReloadOutcome
  | swapped (old new : Nat)
  | noOp (active : Nat)
  | rejected (active : Nat)
  deriving DecidableEq

/-- The snapshot cell and the version counter of the renderer. -/
structure Reloader (Config : Type*) where
  shared : Snapshot Config
  rendered : Nat

/-- The first render: a text that does not validate is never served. -/
def Reloader.bootstrap (texts : ConfigTexts Config) (text : String) : Except String (Reloader Config) :=
  (renderText texts 0 text).map fun (snapshot, rendered) => ⟨snapshot, rendered⟩

/-- How far a reload gets before the snapshot cell advances: it is over, or the hook has bound the snapshot
    that is to be stored. -/
inductive Begun (Config Bound : Type*)
  | done (outcome : ReloadOutcome)
  | storing (next : Snapshot Config) (bound : Bound)

/-- A reload up to the store. The hook gets the version that is active and the snapshot that is to follow. -/
def Reloader.begin (texts : ConfigTexts Config) (hook : Nat → Snapshot Config → Except String Bound)
    (reloader : Reloader Config) (text : String) : Reloader Config × Begun Config Bound :=
  let active := reloader.shared.version
  if texts.contentHash text = reloader.shared.contentHash then (reloader, .done (.noOp active))
  else
    match renderText texts reloader.rendered text with
    | .error _ => (reloader, .done (.rejected active))
    | .ok (next, rendered) =>
      match hook active next with
      | .error _ => ({ reloader with rendered }, .done (.rejected active))
      | .ok bound => ({ reloader with rendered }, .storing next bound)

/-- The cell takes the snapshot. -/
def Reloader.store (reloader : Reloader Config) (next : Snapshot Config) : Reloader Config × ReloadOutcome :=
  ({ reloader with shared := next }, .swapped reloader.shared.version next.version)

def Reloader.reloadFromText (texts : ConfigTexts Config)
    (hook : Nat → Snapshot Config → Except String Bound) (reloader : Reloader Config) (text : String) :
    Reloader Config × ReloadOutcome :=
  match reloader.begin texts hook text with
  | (reloader, .done outcome) => (reloader, outcome)
  | (reloader, .storing next _) => reloader.store next

@[simp] theorem Reloader.store_rendered (reloader : Reloader Config) (next : Snapshot Config) :
    (reloader.store next).1.rendered = reloader.rendered := rfl

@[simp] theorem Reloader.store_shared (reloader : Reloader Config) (next : Snapshot Config) :
    (reloader.store next).1.shared = next := rfl

theorem renderText_spec {texts : ConfigTexts Config} {next rendered : Nat} {text : String}
    {snapshot : Snapshot Config} (renders : renderText texts next text = .ok (snapshot, rendered)) :
    texts.fromYaml text = .ok snapshot.config ∧ snapshot.version = next + 1 ∧
      snapshot.contentHash = texts.contentHash text ∧ rendered = next + 1 := by
  unfold renderText at renders
  cases parsed : texts.fromYaml text with
  | error e => simp [parsed, Except.map] at renders
  | ok config =>
    simp only [parsed, Except.map, Except.ok.injEq, Prod.mk.injEq] at renders
    obtain ⟨rfl, rfl⟩ := renders
    exact ⟨rfl, rfl, rfl, rfl⟩

/-- A beginning reload leaves the cell alone. It counts a version when the text validates, whatever the hook
    says then, and what waits to be stored carries that version and was bound by the hook. -/
theorem Reloader.begin_cases (texts : ConfigTexts Config)
    (hook : Nat → Snapshot Config → Except String Bound) (reloader : Reloader Config) (text : String) :
    (∃ outcome, reloader.begin texts hook text = (reloader, .done outcome) ∧
        (outcome = .noOp reloader.shared.version ∧ texts.contentHash text = reloader.shared.contentHash ∨
          outcome = .rejected reloader.shared.version)) ∨
      (∃ next, next.version = reloader.rendered + 1 ∧ next.contentHash = texts.contentHash text ∧
        texts.fromYaml text = .ok next.config ∧
        ((reloader.begin texts hook text =
            ({ reloader with rendered := reloader.rendered + 1 }, .done (.rejected reloader.shared.version))) ∨
          ∃ bound, hook reloader.shared.version next = .ok bound ∧ reloader.begin texts hook text =
            ({ reloader with rendered := reloader.rendered + 1 }, .storing next bound))) := by
  unfold Reloader.begin
  by_cases same : texts.contentHash text = reloader.shared.contentHash
  · exact .inl ⟨_, by simp only [if_pos same], .inl ⟨rfl, same⟩⟩
  · simp only [if_neg same]
    cases renders : renderText texts reloader.rendered text with
    | error e => exact .inl ⟨_, rfl, .inr rfl⟩
    | ok result =>
      obtain ⟨next, rendered⟩ := result
      obtain ⟨parsed, version, hash, rfl⟩ := renderText_spec renders
      refine .inr ⟨next, version, hash, parsed, ?_⟩
      cases hooked : hook reloader.shared.version next with
      | error e => exact .inl (by simp only [hooked])
      | ok bound => exact .inr ⟨bound, rfl, by simp only [hooked]⟩

theorem Reloader.bootstrap_spec {texts : ConfigTexts Config} {text : String} {reloader : Reloader Config}
    (boots : Reloader.bootstrap texts text = .ok reloader) :
    texts.fromYaml text = .ok reloader.shared.config ∧ reloader.shared.version = 1 ∧
      reloader.shared.contentHash = texts.contentHash text ∧ reloader.rendered = 1 := by
  unfold Reloader.bootstrap at boots
  cases renders : renderText texts 0 text with
  | error e => simp [renders, Except.map] at boots
  | ok result =>
    obtain ⟨snapshot, rendered⟩ := result
    simp only [renders, Except.map, Except.ok.injEq] at boots
    subst boots
    exact renderText_spec renders

end SmallGateway
