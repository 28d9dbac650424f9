import Mathlib.Data.List.Perm.Basic
import SmallGateway.Fleet
import SmallGateway.Lib.Runs

/-!
The pushes to one node (`gatewayctl/src/{server,rollout,canary_rollout,fleet}.rs`). A bootstrap, a wave, a rollback and
a heal each take three steps: they find the render that is desired for the node, mint a version for it
(`next_version_for`), and place the snapshot on the node's stream (`push_and_await`). Nothing is held across the three,
so other pushes take theirs in between. The last snapshot on the stream is the newest in every state of a run exactly
when no push is overtaken (`newest_last_iff_not_overtaken`).

The stream is one connection of the node; a push that finds it gone places nothing and is not modelled.
-/

namespace SmallGateway

/-- A render that is to be pushed. What is desired of the node has changed `desires` times when it was found. -/
structure FoundRender where
  rendered : Rendered
  desires : Nat

/-- A render with the version minted for it, and how many versions were minted for the node before it. -/
structure MintedPush where
  found : FoundRender
  version : Nat
  turn : Nat

def MintedPush.snapshot (push : MintedPush) (nodeId : String) : RenderedSnapshot :=
  push.found.rendered.toSnapshot nodeId push.version

/-- The pushes to a node: those that have found their render, those that have minted their version, and those that are
    placed on the stream, in order. `mints` are the versions minted so far. -/
structure NodePushes where
  fleet : Fleet
  desires : Nat
  found : List FoundRender
  minted : List MintedPush
  stream : List MintedPush
  mints : List Nat

namespace NodePushes

def start (fleet : Fleet) : NodePushes := ⟨fleet, 0, [], [], [], []⟩

inductive Action where
  /-- A source is applied, so that something else is desired of the node. -/
  | apply (next : Rendered) (resolved : ResolvedRepo) (plan : WavePlan)
  /-- A rollback sends the node back to a prior render. -/
  | rollback (prior : Rendered)
  /-- A bootstrap, a wave or a heal finds the desired render by the node's labels, or the applied one when the node is
      unknown. -/
  | find (labels : Option Labels)
  | mint (i : Nat)
  | send (i : Nat)

variable (texts : RenderTexts) (nodeId : String)

def step (s : NodePushes) : Action → Option NodePushes
  | .apply next resolved plan =>
    some { s with fleet := (s.fleet.setAppliedFromSource next resolved plan).2, desires := s.desires + 1 }
  | .rollback prior => some { s with desires := s.desires + 1, found := s.found ++ [⟨prior, s.desires + 1⟩] }
  | .find none => some { s with found := s.found ++ [⟨s.fleet.applied, s.desires⟩] }
  | .find (some labels) =>
    let (rendered, fleet) := s.fleet.desiredFor texts labels
    some { s with fleet, found := s.found ++ [⟨rendered, s.desires⟩] }
  | .mint i =>
    match s.found[i]? with
    | none => none
    | some found =>
      let (version, fleet) := s.fleet.nextVersionFor nodeId found.rendered.renderHash
      some
        { s with
          fleet
          found := s.found.eraseIdx i
          minted := s.minted ++ [⟨found, version, s.mints.length⟩]
          mints := s.mints ++ [version] }
  | .send i =>
    match s.minted[i]? with
    | none => none
    | some push => some { s with minted := s.minted.eraseIdx i, stream := s.stream ++ [push] }

/-- The second render was found when no newer one than the first was desired, or is the same. -/
def NotSuperseded (first second : MintedPush) : Prop :=
  first.found.desires ≤ second.found.desires ∨
    first.found.rendered.renderHash = second.found.rendered.renderHash

instance (first second : MintedPush) : Decidable (NotSuperseded first second) :=
  inferInstanceAs (Decidable (_ ∨ _))

/-- The last snapshot on the stream carries the highest version of all on it, and of all ever minted for the node when
    none is under way; and no snapshot before it was found for a newer desired state, unless it is the same render. -/
structure LastIsNewest (s : NodePushes) : Prop where
  highest : ∀ last ∈ s.stream.getLast?, ∀ placed ∈ s.stream, placed.version ≤ last.version
  everMinted : ∀ last ∈ s.stream.getLast?, s.minted = [] →
    last.version = (s.fleet.versioning nodeId).lastVersion
  desired : ∀ last ∈ s.stream.getLast?, ∀ placed ∈ s.stream, NotSuperseded placed last

/-- A push that sends is not overtaken: every push that is on the stream already minted its version before it, or no
    other version since, and found its render no later than the last change of what is desired before it found its
    own, unless it found the same. -/
def NotOvertaken (s : NodePushes) : Action → Prop
  | .send i =>
    ∀ push ∈ s.minted[i]?, ∀ placed ∈ s.stream,
      (placed.turn < push.turn ∨ placed.version = push.version) ∧ NotSuperseded placed push
  | _ => True

instance : ∀ (s : NodePushes) (action : Action), Decidable (s.NotOvertaken action)
  | s, .send i => by
    unfold NotOvertaken
    infer_instance
  | _, .apply _ _ _ => inferInstanceAs (Decidable True)
  | _, .rollback _ => inferInstanceAs (Decidable True)
  | _, .find _ => inferInstanceAs (Decidable True)
  | _, .mint _ => inferInstanceAs (Decidable True)

/-! ### Versions in the order in which they were minted -/

/-- The versions are minted in order, and every minted push is under way or on the stream. -/
structure Sound (s : NodePushes) : Prop where
  sorted : s.mints.Pairwise (· ≤ ·)
  bounded : ∀ version ∈ s.mints, version ≤ (s.fleet.versioning nodeId).lastVersion
  latest : ∀ version ∈ s.mints.getLast?, version = (s.fleet.versioning nodeId).lastVersion
  turns : ∀ push ∈ s.minted ++ s.stream, s.mints[push.turn]? = some push.version
  present : ∀ turn < s.mints.length, ∃ push ∈ s.minted ++ s.stream, push.turn = turn

theorem start_sound (fleet : Fleet) : (start fleet).Sound nodeId where
  sorted := .nil
  bounded := by simp [start]
  latest := by simp [start]
  turns := by simp [start]
  present := by simp [start]

variable {nodeId}

theorem versioning_congr {fleet other : Fleet} (same : other.perNode = fleet.perNode) :
    other.versioning nodeId = fleet.versioning nodeId := by
  unfold Fleet.versioning
  rw [same]

theorem Sound.of_same {s t : NodePushes} (sound : s.Sound nodeId)
    (versioning : t.fleet.versioning nodeId = s.fleet.versioning nodeId) (mints : t.mints = s.mints)
    (minted : t.minted = s.minted) (stream : t.stream = s.stream) : t.Sound nodeId := by
  obtain ⟨sorted, bounded, latest, turns, present⟩ := sound
  refine ⟨?_, ?_, ?_, ?_, ?_⟩
  · rwa [mints]
  · rwa [mints, versioning]
  · rwa [mints, versioning]
  · rwa [minted, stream, mints]
  · rwa [minted, stream, mints]

theorem nextVersionFor_versioning (fleet : Fleet) (nodeId hash : String) :
    ((fleet.nextVersionFor nodeId hash).2.versioning nodeId).lastVersion =
      (fleet.nextVersionFor nodeId hash).1 := by
  simp [Fleet.nextVersionFor, Fleet.versioning]

/-- No version is lower than the last one. -/
theorem lastVersion_le_minted (fleet : Fleet) (nodeId hash : String) :
    (fleet.versioning nodeId).lastVersion ≤ (fleet.nextVersionFor nodeId hash).1 := by
  show _ ≤ fleet.mintedVersion nodeId hash
  unfold Fleet.mintedVersion
  dsimp only
  split <;> omega

theorem Sound.minted {s : NodePushes} (sound : s.Sound nodeId) (found : FoundRender) (rest : List FoundRender) :
    Sound nodeId
      { s with
        fleet := (s.fleet.nextVersionFor nodeId found.rendered.renderHash).2
        found := rest
        minted := s.minted ++
          [⟨found, (s.fleet.nextVersionFor nodeId found.rendered.renderHash).1, s.mints.length⟩]
        mints := s.mints ++ [(s.fleet.nextVersionFor nodeId found.rendered.renderHash).1] } := by
  have raised := lastVersion_le_minted s.fleet nodeId found.rendered.renderHash
  have becomes := nextVersionFor_versioning s.fleet nodeId found.rendered.renderHash
  obtain ⟨sorted, bounded, latest, turns, present⟩ := sound
  refine ⟨?_, ?_, ?_, ?_, ?_⟩
  · rw [List.pairwise_append]
    refine ⟨sorted, List.pairwise_singleton _ _, fun before inside last isLast => ?_⟩
    rw [List.mem_singleton] at isLast
    exact isLast ▸ (bounded before inside).trans raised
  · intro version inside
    show version ≤ _
    rw [becomes]
    rcases List.mem_append.mp inside with before | last
    · exact (bounded version before).trans raised
    · exact (List.mem_singleton.mp last).le
  · intro version isLast
    rw [List.getLast?_append, List.getLast?_singleton, Option.some_or] at isLast
    cases isLast
    exact becomes.symm
  · intro push inside
    have earlier : push ∈ s.minted ++ s.stream →
        (s.mints ++ [(s.fleet.nextVersionFor nodeId found.rendered.renderHash).1])[push.turn]? = some push.version := by
      intro before
      have at' := turns push before
      have bound := (List.getElem?_eq_some_iff.mp at').1
      rw [List.getElem?_append_left bound, at']
    rcases List.mem_append.mp inside with under | placed
    · rcases List.mem_append.mp under with before | new
      · exact earlier (List.mem_append_left _ before)
      · rw [List.mem_singleton] at new
        subst new
        simp
    · exact earlier (List.mem_append_right _ placed)
  · intro turn bound
    rw [List.length_append, List.length_singleton] at bound
    by_cases before : turn < s.mints.length
    · obtain ⟨push, inside, atTurn⟩ := present turn before
      refine ⟨push, ?_, atTurn⟩
      rcases List.mem_append.mp inside with under | placed
      · exact List.mem_append_left _ (List.mem_append_left _ under)
      · exact List.mem_append_right _ placed
    · refine ⟨_, List.mem_append_left _ (List.mem_append_right _ (List.mem_singleton_self _)), ?_⟩
      show s.mints.length = turn
      omega

/-- A push that is sent moves from those under way to the stream. -/
theorem sent_perm {minted : List MintedPush} (stream : List MintedPush) {i : Nat} {push : MintedPush}
    (found : minted[i]? = some push) : (minted.eraseIdx i ++ (stream ++ [push])).Perm (minted ++ stream) := by
  obtain ⟨bound, rfl⟩ := List.getElem?_eq_some_iff.mp found
  have moved : (minted.eraseIdx i ++ (stream ++ [minted[i]])).Perm (minted[i] :: minted.eraseIdx i ++ stream) := by
    rw [← List.append_assoc]
    exact List.perm_append_singleton _ _
  exact moved.trans ((List.getElem_cons_eraseIdx_perm bound).append_right stream)

theorem Sound.sent {s : NodePushes} (sound : s.Sound nodeId) {i : Nat} {push : MintedPush}
    (found : s.minted[i]? = some push) :
    Sound nodeId { s with minted := s.minted.eraseIdx i, stream := s.stream ++ [push] } := by
  have same := sent_perm s.stream found
  obtain ⟨sorted, bounded, latest, turns, present⟩ := sound
  refine ⟨sorted, bounded, latest, fun push inside => turns push (same.mem_iff.mp inside), fun turn bound => ?_⟩
  obtain ⟨push, inside, atTurn⟩ := present turn bound
  exact ⟨push, same.mem_iff.mpr inside, atTurn⟩

/-- A push that minted no earlier than another has no lower version. -/
theorem Sound.version_le {s : NodePushes} (sound : s.Sound nodeId) {first second : MintedPush}
    (firstIn : first ∈ s.minted ++ s.stream) (secondIn : second ∈ s.minted ++ s.stream)
    (order : first.turn ≤ second.turn) : first.version ≤ second.version := by
  have atFirst := sound.turns first firstIn
  have atSecond := sound.turns second secondIn
  obtain ⟨firstBound, firstIs⟩ := List.getElem?_eq_some_iff.mp atFirst
  obtain ⟨secondBound, secondIs⟩ := List.getElem?_eq_some_iff.mp atSecond
  rcases Nat.lt_or_eq_of_le order with before | same
  · have sorted := List.pairwise_iff_getElem.mp sound.sorted first.turn second.turn firstBound secondBound before
    rwa [firstIs, secondIs] at sorted
  · rw [same, atSecond, Option.some.injEq] at atFirst
    exact atFirst.ge

/-- When nothing is under way, the highest version on the stream is the last one minted. -/
theorem Sound.everMinted {s : NodePushes} (sound : s.Sound nodeId) (quiet : s.minted = []) {last : MintedPush}
    (placed : last ∈ s.stream) (highest : ∀ push ∈ s.stream, push.version ≤ last.version) :
    last.version = (s.fleet.versioning nodeId).lastVersion := by
  have atLast := sound.turns last (List.mem_append_right _ placed)
  have bound := (List.getElem?_eq_some_iff.mp atLast).1
  have below := sound.bounded last.version (List.mem_of_getElem? atLast)
  obtain ⟨newest, inside, atTurn⟩ := sound.present (s.mints.length - 1) (by omega)
  have version := sound.turns newest inside
  rw [atTurn, ← List.getLast?_eq_getElem?] at version
  have isLatest := sound.latest newest.version version
  rw [quiet, List.nil_append] at inside
  have above := highest newest inside
  omega

variable (nodeId) in
theorem sound_preserved : Runs.Preserves (step texts nodeId) (Sound nodeId) := by
  intro s action t sound stepped
  cases action with
  | apply next resolved plan =>
    obtain rfl := Option.some.inj stepped
    exact sound.of_same rfl rfl rfl rfl
  | rollback prior =>
    obtain rfl := Option.some.inj stepped
    exact sound.of_same rfl rfl rfl rfl
  | find labels =>
    cases labels with
    | none =>
      obtain rfl := Option.some.inj stepped
      exact sound.of_same rfl rfl rfl rfl
    | some labels =>
      obtain rfl := Option.some.inj stepped
      exact sound.of_same (versioning_congr (Fleet.desiredFor_versions texts s.fleet labels).1) rfl rfl rfl
  | mint i =>
    simp only [step] at stepped
    split at stepped
    · cases stepped
    · rename_i found _
      obtain rfl := Option.some.inj stepped
      exact sound.minted found _
  | send i =>
    simp only [step] at stepped
    split at stepped
    · cases stepped
    · rename_i push found
      obtain rfl := Option.some.inj stepped
      exact sound.sent found

/-- A step that leaves the stream alone and the versions, or has a push under way, leaves its last snapshot the
    newest. -/
theorem LastIsNewest.of_same {s t : NodePushes} (newest : s.LastIsNewest nodeId) (stream : t.stream = s.stream)
    (versions : t.minted = [] → s.minted = [] ∧ t.fleet.versioning nodeId = s.fleet.versioning nodeId) :
    t.LastIsNewest nodeId := by
  refine ⟨?_, fun last isLast quiet => ?_, ?_⟩
  · rw [stream]
    exact newest.highest
  · obtain ⟨before, same⟩ := versions quiet
    rw [same]
    exact newest.everMinted last (stream ▸ isLast) before
  · rw [stream]
    exact newest.desired

/-- A push that is sent is the newest on the stream exactly when it is not overtaken. -/
theorem sent_newest_iff {s : NodePushes} (sound : s.Sound nodeId) {i : Nat} {push : MintedPush}
    (found : s.minted[i]? = some push) :
    LastIsNewest nodeId { s with minted := s.minted.eraseIdx i, stream := s.stream ++ [push] } ↔
      s.NotOvertaken (.send i) := by
  have pushIn : push ∈ s.minted ++ s.stream := List.mem_append_left _ (List.mem_of_getElem? found)
  have isLast : (s.stream ++ [push]).getLast? = some push := by simp
  constructor
  · intro newest other isPush placed inside
    rw [found, Option.mem_some_iff] at isPush
    subst isPush
    have higher := newest.highest push isLast placed (List.mem_append_left _ inside)
    refine ⟨?_, newest.desired push isLast placed (List.mem_append_left _ inside)⟩
    by_cases before : placed.turn < push.turn
    · exact .inl before
    · have lower := sound.version_le pushIn (List.mem_append_right _ inside) (Nat.le_of_not_lt before)
      exact .inr (Nat.le_antisymm higher lower)
  · intro notOvertaken
    have highest : ∀ placed ∈ s.stream ++ [push], placed.version ≤ push.version := by
      intro placed inside
      rcases List.mem_append.mp inside with before | last
      · rcases (notOvertaken push found placed before).1 with earlier | same
        · exact sound.version_le (List.mem_append_right _ before) pushIn (Nat.le_of_lt earlier)
        · exact same.le
      · rw [List.mem_singleton.mp last]
    refine ⟨fun last atEnd => ?_, fun last atEnd quiet => ?_, fun last atEnd placed inside => ?_⟩
    · rw [isLast, Option.mem_some_iff] at atEnd
      exact atEnd ▸ highest
    · rw [isLast, Option.mem_some_iff] at atEnd
      subst atEnd
      exact (sound.sent found).everMinted quiet (List.mem_append_right _ (List.mem_singleton_self _)) highest
    · rw [isLast, Option.mem_some_iff] at atEnd
      subst atEnd
      rcases List.mem_append.mp inside with before | last
      · exact (notOvertaken push found placed before).2
      · rw [List.mem_singleton.mp last]
        exact .inl (Nat.le_refl _)

variable (nodeId) in
theorem newest_iff {s t : NodePushes} {action : Action} (sound : s.Sound nodeId) (newest : s.LastIsNewest nodeId)
    (stepped : step texts nodeId s action = some t) : t.LastIsNewest nodeId ↔ s.NotOvertaken action := by
  cases action with
  | apply next resolved plan =>
    obtain rfl := Option.some.inj stepped
    exact ⟨fun _ => trivial, fun _ => newest.of_same rfl fun quiet => ⟨quiet, rfl⟩⟩
  | rollback prior =>
    obtain rfl := Option.some.inj stepped
    exact ⟨fun _ => trivial, fun _ => newest.of_same rfl fun quiet => ⟨quiet, rfl⟩⟩
  | find labels =>
    refine ⟨fun _ => trivial, fun _ => ?_⟩
    cases labels with
    | none =>
      obtain rfl := Option.some.inj stepped
      exact newest.of_same rfl fun quiet => ⟨quiet, rfl⟩
    | some labels =>
      obtain rfl := Option.some.inj stepped
      refine newest.of_same rfl fun quiet => ⟨quiet, ?_⟩
      exact versioning_congr (Fleet.desiredFor_versions texts s.fleet labels).1
  | mint i =>
    simp only [step] at stepped
    split at stepped
    · cases stepped
    · obtain rfl := Option.some.inj stepped
      refine ⟨fun _ => trivial, fun _ => newest.of_same rfl fun quiet => ?_⟩
      simp at quiet
  | send i =>
    simp only [step] at stepped
    split at stepped
    · cases stepped
    · rename_i push found
      obtain rfl := Option.some.inj stepped
      exact sent_newest_iff sound found

/-- In every run of pushes to a node, however their steps interleave: the last snapshot on its stream is the newest
    in every state exactly when no push is overtaken. -/
theorem newest_last_iff_not_overtaken {fleet : Fleet} {as : List Action} {t : NodePushes}
    (executed : Runs.exec (step texts nodeId) (start fleet) as = some t) :
    Runs.Along (step texts nodeId) NotOvertaken (start fleet) as ↔
      ∀ before after s, as = before ++ after → Runs.exec (step texts nodeId) (start fleet) before = some s →
        s.LastIsNewest nodeId := by
  have keptIff : ∀ s action t, s.Sound nodeId ∧ s.LastIsNewest nodeId → step texts nodeId s action = some t →
      (t.Sound nodeId ∧ t.LastIsNewest nodeId ↔ s.NotOvertaken action) := by
    rintro s action t ⟨sound, newest⟩ stepped
    have soundAfter := sound_preserved texts nodeId s action t sound stepped
    rw [← newest_iff texts nodeId sound newest stepped]
    exact ⟨fun both => both.2, fun after => ⟨soundAfter, after⟩⟩
  have initial : (start fleet).Sound nodeId ∧ (start fleet).LastIsNewest nodeId := by
    refine ⟨start_sound nodeId fleet, ?_, ?_, ?_⟩ <;> simp [start]
  rw [Runs.along_iff_states keptIff initial executed]
  constructor
  · intro states before after s parts reached
    exact (states before after s parts reached).2
  · intro newest before after s parts reached
    exact ⟨Runs.exec_preserves (sound_preserved texts nodeId) (start_sound nodeId fleet) reached,
      newest before after s parts reached⟩

/-- A repo without files renders to one text, any other to a second one. -/
def twoTexts : RenderTexts := ⟨fun files _ => .ok (if files.isEmpty then "old" else "new"), id⟩

def oldRepo : ResolvedRepo := ⟨[], "c1"⟩
def newRepo : ResolvedRepo := ⟨[("gateway.yaml", [])], "c2"⟩

/-- A fleet on the old repo. -/
def onOld : Fleet := .fromSource (twoTexts.finalize oldRepo "old") oldRepo .single

def applyNew : Action := .apply (twoTexts.finalize newRepo "new") newRepo .single

/-- A bootstrap and a wave, one after the other. -/
theorem newest_last_in_turn :
    let as := [.find (some ∅), .mint 0, .send 0, applyNew, .find (some ∅), .mint 0, .send 0]
    let t := (Runs.exec (step twoTexts "n1") (start onOld) as).getD (start onOld)
    t.LastIsNewest "n1" ∧ t.stream.map (·.version) = [1, 2] := by
  intro as t
  have executed := Runs.exec_eq_getD (step twoTexts "n1") (start onOld) as (by decide) (start onOld)
  have notOvertaken : Runs.Along (step twoTexts "n1") NotOvertaken (start onOld) as := by decide
  have newest := (newest_last_iff_not_overtaken twoTexts executed).mp notOvertaken as [] t
    (List.append_nil as).symm executed
  exact ⟨newest, by decide⟩

/-- A bootstrap mints version 1 for the old render; the new one is applied, pushed by a wave as version 2 and placed;
    then the bootstrap places version 1. -/
theorem bootstrap_overtaken_by_wave :
    ¬ ∀ (texts : RenderTexts) (nodeId : String) (fleet : Fleet) (as : List Action) (t : NodePushes),
        Runs.exec (step texts nodeId) (start fleet) as = some t → t.LastIsNewest nodeId := by
  intro newest
  let as := [.find (some ∅), .mint 0, applyNew, .find (some ∅), .mint 0, .send 1, .send 0]
  have executed := Runs.exec_eq_getD (step twoTexts "n1") (start onOld) as (by decide) (start onOld)
  have last := (newest twoTexts "n1" onOld as _ executed).highest
  have lower : ¬ ∀ last ∈ (((Runs.exec (step twoTexts "n1") (start onOld) as).getD (start onOld)).stream).getLast?,
      ∀ placed ∈ ((Runs.exec (step twoTexts "n1") (start onOld) as).getD (start onOld)).stream,
        placed.version ≤ last.version := by
    decide
  exact lower last

end NodePushes

end SmallGateway
