import SmallGateway.Fleet
import SmallGateway.Lib.Memo
import SmallGateway.Lib.Records
import SmallGateway.Lib.Runs

/-!
The renders that the fleet keeps for the labels of its nodes (`Fleet::desired_for`, `canonical_labels` in
`gatewayctl/src/fleet.rs`). A render is kept under a flat text of the labels, sorted `k=v;` pairs, until an apply changes
what it is made from. Two label maps can have one text, and the second of them that is asked for between two applies is
then given the render of the first. In every run of applies and queries, each answer is the render of the labels that
are asked for, and its own, exactly when the label maps that are asked for between two applies have texts of their own
(`desiredFor_transparent_iff`).
-/

namespace SmallGateway

/-- The entries of a label map, in the order of their keys. -/
abbrev LabelEntries := List (String × String)

/-- The flat text of a label map. -/
def LabelEntries.canonical (entries : LabelEntries) : String :=
  entries.foldl (fun text (label, value) => text ++ label ++ "=" ++ value ++ ";") ""

/-- Texts that are made from a repo and the entries of a label map. -/
def RenderTexts.ofEntries (flatFor : List (String × List UInt8) → Option LabelEntries → Except String String)
    (contentHash : String → String) : RenderTexts :=
  ⟨fun files labels => flatFor files (labels.map (·.toList)), contentHash⟩

theorem canonicalLabels_eq (labels : Labels) : canonicalLabels labels = LabelEntries.canonical labels.toList :=
  Std.TreeMap.foldl_eq_foldl_toList

/-- The flat text is a list of records, each label ended by '=' and each value by ';'. -/
theorem LabelEntries.canonical_toList (entries : LabelEntries) :
    entries.canonical.toList = Records.encode '=' ';' (entries.map fun entry => (entry.1.toList, entry.2.toList)) := by
  have folded (before : String) : (entries.foldl (fun text (label, value) => text ++ label ++ "=" ++ value ++ ";")
      before).toList =
        before.toList ++ Records.encode '=' ';' (entries.map fun entry => (entry.1.toList, entry.2.toList)) := by
    induction entries generalizing before with
    | nil => simp [Records.encode]
    | cons entry rest ih =>
      rw [List.foldl_cons, ih, List.map_cons, Records.encode_cons]
      simp
  exact (folded "").trans (List.nil_append _)

/-- Labels without '=' that have values without ';' are told apart by their text. -/
theorem LabelEntries.canonical_injective {entries others : LabelEntries}
    (plain : ∀ entry ∈ entries, '=' ∉ entry.1.toList ∧ ';' ∉ entry.2.toList)
    (plainToo : ∀ entry ∈ others, '=' ∉ entry.1.toList ∧ ';' ∉ entry.2.toList)
    (same : entries.canonical = others.canonical) : entries = others := by
  have separable {entries : LabelEntries} (plain : ∀ entry ∈ entries, '=' ∉ entry.1.toList ∧ ';' ∉ entry.2.toList) :
      ∀ record ∈ entries.map fun entry => (entry.1.toList, entry.2.toList), Records.Separable '=' ';' record := by
    intro record inside
    obtain ⟨entry, listed, rfl⟩ := List.mem_map.mp inside
    exact plain entry listed
  have texts := congrArg String.toList same
  rw [canonical_toList, canonical_toList] at texts
  refine List.map_injective_iff.mpr ?_ (Records.encode_injective (separable plain) (separable plainToo) texts)
  intro entry other parts
  obtain ⟨labels, values⟩ := Prod.mk.inj parts
  exact Prod.ext (String.toList_inj.mp labels) (String.toList_inj.mp values)

namespace Fleet

/-- Replaces the applied render. A render of the same hash changes nothing. -/
def setApplied (fleet : Fleet) (next : Rendered) : Bool × Fleet :=
  if fleet.applied.renderHash = next.renderHash then (false, fleet)
  else (true, { fleet with applied := next, renderCache := ∅ })

/-- The desired render for a node's labels without what is kept: from the current repo, or the applied one where there
    is no repo or the render fails. -/
def freshRender (texts : RenderTexts) (fleet : Fleet) (labels : Labels) : Rendered :=
  match fleet.desired with
  | none => fleet.applied
  | some inputs =>
    match texts.renderResolvedForNode inputs.resolved labels with
    | .ok rendered => rendered
    | .error _ => fleet.applied

theorem desiredFor_hit {texts : RenderTexts} {fleet : Fleet} {labels : Labels} {hit : Rendered}
    (cached : fleet.renderCache[canonicalLabels labels]? = some hit) : fleet.desiredFor texts labels = (hit, fleet) := by
  simp only [desiredFor, cached]

theorem desiredFor_miss {texts : RenderTexts} {fleet : Fleet} {labels : Labels}
    (uncached : fleet.renderCache[canonicalLabels labels]? = none) :
    fleet.desiredFor texts labels = (fleet.freshRender texts labels,
      { fleet with
        renderCache := fleet.renderCache.insert (canonicalLabels labels) (fleet.freshRender texts labels) }) := by
  simp only [desiredFor, uncached]
  rfl

end Fleet

namespace RenderMemo

/-- A fleet between applies and queries. Beside it stand the labels that have been asked for since the renders were last
    dropped, and for each render that is kept the labels that it was made for. -/
structure State where
  texts : RenderTexts
  fleet : Fleet
  asked : List LabelEntries
  madeFor : Std.TreeMap String LabelEntries

/-- An apply of a render alone, an apply of a source with the texts that its repo and its gateway sets make, a query for a
    node's labels, or any other operation of the fleet: none of those touches a render. -/
inductive Action where
  | setApplied (next : Rendered)
  | setAppliedFromSource (next : Rendered) (resolved : ResolvedRepo) (plan : WavePlan)
      (flatFor : List (String × List UInt8) → Option LabelEntries → Except String String)
  | desiredFor (labels : Labels)
  | other (committedVersion : Nat) (perNode : Std.TreeMap String NodeVersioning)
      (waveCommit : Std.TreeMap String String) (canary : CanaryPolicy)

def State.step (s : State) : Action → Option State
  | .setApplied next =>
    match s.fleet.setApplied next with
    | (true, fleet) => some { s with fleet := fleet, asked := [], madeFor := ∅ }
    | (false, fleet) => some { s with fleet := fleet }
  | .setAppliedFromSource next resolved plan flatFor =>
    some ⟨.ofEntries flatFor s.texts.contentHash, (s.fleet.setAppliedFromSource next resolved plan).2, [], ∅⟩
  | .desiredFor labels =>
    some { s with
      fleet := (s.fleet.desiredFor s.texts labels).2
      asked := labels.toList :: s.asked
      madeFor :=
        if (s.fleet.renderCache[canonicalLabels labels]?).isSome then s.madeFor
        else s.madeFor.insert (canonicalLabels labels) labels.toList }
  | .other committedVersion perNode waveCommit canary =>
    some { s with fleet := { s.fleet with
      committedVersion := committedVersion, perNode := perNode, waveCommit := waveCommit, canary := canary } }

/-- A fleet that has not been asked yet. -/
def State.start (flatFor : List (String × List UInt8) → Option LabelEntries → Except String String)
    (contentHash : String → String) (fleet : Fleet) : State :=
  ⟨.ofEntries flatFor contentHash, { fleet with renderCache := ∅ }, [], ∅⟩

/-- The answer is the render for the labels, and no render that was made for other labels. -/
def Transparent (s : State) : Action → Prop
  | .desiredFor labels =>
    (s.fleet.desiredFor s.texts labels).1 = s.fleet.freshRender s.texts labels ∧
      ∀ owner, s.madeFor[canonicalLabels labels]? = some owner → owner = labels.toList
  | _ => True

/-- No other labels with the text of these have been asked for since the renders were last dropped. -/
def Apart (s : State) : Action → Prop
  | .desiredFor labels => ∀ other ∈ s.asked, other.canonical = canonicalLabels labels → other = labels.toList
  | _ => True

/-- The render for the entries of a label map. -/
def renderFor (flatFor : List (String × List UInt8) → Option LabelEntries → Except String String)
    (contentHash : String → String) (fleet : Fleet) (entries : LabelEntries) : Rendered :=
  match fleet.desired with
  | none => fleet.applied
  | some inputs =>
    match (flatFor inputs.resolved.files (some entries)).map
        ((RenderTexts.ofEntries flatFor contentHash).finalize inputs.resolved) with
    | .ok rendered => rendered
    | .error _ => fleet.applied

/-- What is kept is the memo table of the current render. -/
def Kept (s : State) : Prop :=
  ∃ flatFor contentHash, s.texts = .ofEntries flatFor contentHash ∧
    Memo.Table LabelEntries.canonical (renderFor flatFor contentHash s.fleet) (fun text => s.fleet.renderCache[text]?)
      (fun text => s.madeFor[text]?) s.asked ∧
    Memo.Separate LabelEntries.canonical (fun text => s.madeFor[text]?) s.asked

theorem renderFor_toList (flatFor : List (String × List UInt8) → Option LabelEntries → Except String String)
    (contentHash : String → String) (fleet : Fleet) (labels : Labels) :
    renderFor flatFor contentHash fleet labels.toList = fleet.freshRender (.ofEntries flatFor contentHash) labels := rfl

/-- A table without entries is the one of any function. -/
theorem table_empty (f : LabelEntries → Rendered) :
    Memo.Table LabelEntries.canonical f (fun text => (∅ : Std.TreeMap String Rendered)[text]?)
      (fun text => (∅ : Std.TreeMap String LabelEntries)[text]?) [] := by
  have nothing {β : Type} : (fun text : String => (∅ : Std.TreeMap String β)[text]?) = fun _ => none :=
    funext fun _ => Std.TreeMap.getElem?_emptyc
  rw [nothing, nothing]
  exact .empty

theorem insert_update {β : Type} (kept : Std.TreeMap String β) (text : String) (value : β) :
    (fun other : String => (kept.insert text value)[other]?) =
      Function.update (fun other : String => kept[other]?) text (some value) := by
  funext other
  rw [Std.TreeMap.getElem?_insert]
  by_cases same : text = other
  · simp [same]
  · rw [Function.update_of_ne (Ne.symm same), if_neg (by simpa using same)]

variable {s t : State} {action : Action}

theorem kept_start (flatFor : List (String × List UInt8) → Option LabelEntries → Except String String)
    (contentHash : String → String) (fleet : Fleet) : Kept (.start flatFor contentHash fleet) :=
  ⟨flatFor, contentHash, rfl, table_empty _, nofun⟩

/-- A query that is answered from the labels' own render keeps the table. -/
theorem kept_desiredFor {labels : Labels} (kept : Kept s) (own : Transparent s (.desiredFor labels))
    (stepped : s.step (.desiredFor labels) = some t) : Kept t := by
  obtain ⟨flatFor, contentHash, texts, table, separate⟩ := kept
  obtain rfl := Option.some.inj stepped
  have key := canonicalLabels_eq labels
  have owned : ∀ owner, s.madeFor[LabelEntries.canonical labels.toList]? = some owner → owner = labels.toList := key ▸ own.2
  refine ⟨flatFor, contentHash, texts, ?_⟩
  cases cached : s.fleet.renderCache[canonicalLabels labels]? with
  | some hit =>
    have there : (s.fleet.renderCache[LabelEntries.canonical labels.toList]?).isSome := by rw [← key, cached]; rfl
    simp only [Fleet.desiredFor_hit cached, Option.isSome_some, if_true]
    exact ⟨table.hit there, table.separate_hit separate owned there⟩
  | none =>
    have miss : s.fleet.renderCache[LabelEntries.canonical labels.toList]? = none := key ▸ cached
    simp only [Fleet.desiredFor_miss cached, Option.isSome_none, Bool.false_eq_true, if_false, insert_update, texts]
    rw [key]
    exact ⟨table.store miss, table.separate_store separate miss⟩

/-- Every step keeps the table whose queries are answered from the labels' own renders. -/
theorem kept_step (kept : Kept s) (own : Transparent s action) (stepped : s.step action = some t) : Kept t := by
  cases action with
  | desiredFor labels => exact kept_desiredFor kept own stepped
  | setApplied next =>
    obtain ⟨flatFor, contentHash, texts, table, separate⟩ := kept
    simp only [State.step, Fleet.setApplied] at stepped
    split at stepped
    · rename_i changed
      split at changed
      · cases changed
      · obtain ⟨-, rfl⟩ := Prod.mk.inj changed
        obtain rfl := Option.some.inj stepped
        exact ⟨flatFor, contentHash, texts, table_empty _, nofun⟩
    · rename_i unchanged
      split at unchanged
      · obtain ⟨-, rfl⟩ := Prod.mk.inj unchanged
        obtain rfl := Option.some.inj stepped
        exact ⟨flatFor, contentHash, texts, table, separate⟩
      · cases unchanged
  | setAppliedFromSource next resolved plan flatFor =>
    obtain rfl := Option.some.inj stepped
    exact ⟨flatFor, _, rfl, table_empty _, nofun⟩
  | other committedVersion perNode waveCommit canary =>
    obtain ⟨flatFor, contentHash, texts, table, separate⟩ := kept
    obtain rfl := Option.some.inj stepped
    exact ⟨flatFor, contentHash, texts, table, separate⟩

/-- A query is answered from the labels' own render exactly when no other labels with their text have been asked for. -/
theorem transparent_iff_apart (kept : Kept s) : Transparent s action ↔ Apart s action := by
  cases action with
  | desiredFor labels =>
    obtain ⟨flatFor, contentHash, texts, table, separate⟩ := kept
    have key := canonicalLabels_eq labels
    have owned := table.owned_iff (a := labels.toList) separate
    rw [← key] at owned
    refine ⟨fun own => owned.mp own.2, fun apart => ⟨?_, owned.mpr apart⟩⟩
    have answer := table.answer (key ▸ owned.mpr apart)
    rw [← key] at answer
    cases cached : s.fleet.renderCache[canonicalLabels labels]? with
    | some hit =>
      rw [cached, Option.getD_some, renderFor_toList, ← texts] at answer
      rw [Fleet.desiredFor_hit cached, answer]
    | none => rw [Fleet.desiredFor_miss cached]
  | setApplied next => exact Iff.rfl
  | setAppliedFromSource next resolved plan flatFor => exact Iff.rfl
  | other committedVersion perNode waveCommit canary => exact Iff.rfl

/-- Every action can be taken in every state. -/
theorem exec_total (s : State) (actions : List Action) : ∃ t, Runs.exec State.step s actions = some t := by
  induction actions generalizing s with
  | nil => exact ⟨s, rfl⟩
  | cons action rest ih =>
    have enabled : ∃ u, s.step action = some u := by
      cases action with
      | setApplied next =>
        simp only [State.step]
        split <;> exact ⟨_, rfl⟩
      | setAppliedFromSource next resolved plan flatFor => exact ⟨_, rfl⟩
      | desiredFor labels => exact ⟨_, rfl⟩
      | other committedVersion perNode waveCommit canary => exact ⟨_, rfl⟩
    obtain ⟨u, stepped⟩ := enabled
    obtain ⟨t, later⟩ := ih u
    exact ⟨t, Runs.exec_cons.mpr ⟨u, stepped, later⟩⟩

end RenderMemo

open RenderMemo in
/-- In every run of applies and queries, each query is answered with the render of the current repo for its labels, and
    with none that was made for other labels, exactly when no two label maps of one flat text are asked for between two
    times that the renders are dropped. -/
theorem desiredFor_transparent_iff (flatFor : List (String × List UInt8) → Option LabelEntries → Except String String)
    (contentHash : String → String) (fleet : Fleet) (actions : List RenderMemo.Action) :
    Runs.Along RenderMemo.State.step RenderMemo.Transparent (.start flatFor contentHash fleet) actions ↔
      Runs.Along RenderMemo.State.step RenderMemo.Apart (.start flatFor contentHash fleet) actions := by
  obtain ⟨t, executed⟩ := exec_total (.start flatFor contentHash fleet) actions
  exact Runs.along_iff_along Kept (fun _ _ _ => kept_step) (fun _ _ _ kept _ => transparent_iff_apart kept)
    (kept_start flatFor contentHash fleet) executed

namespace RenderMemo

/-- The labels that are asked for have no '=', and their values no ';'. -/
def Plain : Action → Prop
  | .desiredFor labels => ∀ entry ∈ labels.toList, '=' ∉ entry.1.toList ∧ ';' ∉ entry.2.toList
  | _ => True

theorem apart_of_plain (s : State) (actions : List Action)
    (asked : ∀ entries ∈ s.asked, ∀ entry ∈ entries, '=' ∉ entry.1.toList ∧ ';' ∉ entry.2.toList)
    (plain : ∀ action ∈ actions, Plain action) : Runs.Along State.step Apart s actions := by
  induction actions generalizing s with
  | nil => trivial
  | cons action rest ih =>
    obtain ⟨here, later⟩ := List.forall_mem_cons.mp plain
    refine ⟨?_, fun t stepped => ih t ?_ later⟩
    · cases action with
      | desiredFor labels =>
        intro other listed same
        rw [canonicalLabels_eq] at same
        exact LabelEntries.canonical_injective (asked other listed) here same
      | setApplied next => trivial
      | setAppliedFromSource next resolved plan flatFor => trivial
      | other committedVersion perNode waveCommit canary => trivial
    · cases action with
      | desiredFor labels =>
        obtain rfl := Option.some.inj stepped
        exact List.forall_mem_cons.mpr ⟨here, asked⟩
      | setApplied next =>
        simp only [State.step] at stepped
        split at stepped
        · obtain rfl := Option.some.inj stepped
          exact nofun
        · obtain rfl := Option.some.inj stepped
          exact asked
      | setAppliedFromSource next resolved plan flatFor =>
        obtain rfl := Option.some.inj stepped
        exact nofun
      | other committedVersion perNode waveCommit canary =>
        obtain rfl := Option.some.inj stepped
        exact asked

/-- Plain labels are always answered with their own renders. -/
theorem transparent_of_plain (flatFor : List (String × List UInt8) → Option LabelEntries → Except String String)
    (contentHash : String → String) (fleet : Fleet) {actions : List Action} (plain : ∀ action ∈ actions, Plain action) :
    Runs.Along State.step Transparent (.start flatFor contentHash fleet) actions :=
  (desiredFor_transparent_iff flatFor contentHash fleet actions).mpr (apart_of_plain _ actions nofun plain)

/-- A config that shows how many labels it is stamped for. -/
def countedFlat (_ : List (String × List UInt8)) (labels : Option LabelEntries) : Except String String :=
  .ok (Nat.repr ((labels.map (·.length)).getD 0))

def countedFleet : Fleet := .fromSource ⟨[], "", "c1"⟩ ⟨[], "c1"⟩ .single

end RenderMemo

open RenderMemo in
/-- A node with the labels a and b is given the render of a node whose label a has the value `1;b=2`. -/
theorem flat_labels_share :
    ¬ ∀ (flatFor : List (String × List UInt8) → Option LabelEntries → Except String String)
        (contentHash : String → String) (fleet : Fleet) (actions : List RenderMemo.Action),
      Runs.Along RenderMemo.State.step RenderMemo.Transparent (.start flatFor contentHash fleet) actions := by
  intro claimed
  obtain ⟨-, later⟩ := claimed countedFlat id countedFleet
    [.desiredFor (.ofList [("a", "1;b=2")]), .desiredFor (.ofList [("a", "1"), ("b", "2")])]
  obtain ⟨⟨answered, -⟩, -⟩ := later _ rfl
  exact absurd answered (by decide +kernel)

end SmallGateway
