import SmallGateway.AdmissionPolicy

/-!
What admission says of the renders of the nodes (`gatewayctl/src/{admission,render,fleet}.rs`). Admission looks at one
document for each GatewaySet, and a node gets the document of all sets that match its labels together. The main result
says for which labels an admitted repo is sure to render to what passes, whatever the rules of the operator are
(`soundFor_iff`).
-/

namespace SmallGateway

open Yaml (Mapping)

variable {Expr : Type}

/-! ### The fallback -/

/-- The applied render stands in for one that cannot be made. -/
def Fleet.FallsBack (texts : RenderTexts) (fleet : Fleet) (labels : Labels) : Prop :=
  fleet.renderCache[canonicalLabels labels]? = none ∧
    ∃ inputs e, fleet.desired = some inputs ∧ texts.renderResolvedForNode inputs.resolved labels = .error e

theorem Fleet.desiredFor_of_fallsBack {texts : RenderTexts} {fleet : Fleet} {labels : Labels}
    (fallsBack : fleet.FallsBack texts labels) : (fleet.desiredFor texts labels).1 = fleet.applied := by
  obtain ⟨uncached, inputs, e, desired, failed⟩ := fallsBack
  simp only [desiredFor, uncached, desired, failed]

/-- A node with the labels gets a render of its own, and the text of it is admitted. -/
structure Serves (policy : AdmissionPolicy) (lib : RepoLibrary Expr) (engine : RuleEngine) (resolved : ResolvedRepo)
    (labels : Labels) : Prop where
  passes : ∃ sets rendered flat, lib.readGatewaysets resolved.files = .ok sets ∧
    lib.renderResolvedForNode resolved sets labels = .ok rendered ∧ Text.fromUtf8? rendered.configBytes = some flat ∧
    policy.admitYaml lib engine flat = .ok .admits
  stays : ∀ (fleet : Fleet) (inputs : DesiredInputs), fleet.desired = some inputs → inputs.resolved = resolved →
    ¬ fleet.FallsBack lib.texts labels

/-- What admission is for, with regard to one repo and the labels of one node. -/
def SoundFor (policy : AdmissionPolicy) (lib : RepoLibrary Expr) (engine : RuleEngine) (resolved : ResolvedRepo)
    (labels : Labels) : Prop :=
  policy.admitResolved lib engine resolved = .ok .admits → Serves policy lib engine resolved labels

/-- The sets that match the labels make a text that admission looks at. -/
def Tried (lib : RepoLibrary Expr) (resolved : ResolvedRepo) (labels : Labels) : Prop :=
  ∃ doc sets, lib.assembleFlatDoc resolved.files = .ok doc ∧ lib.readGatewaysets resolved.files = .ok sets ∧
    ∃ tried ∈ triedDocs sets doc, lib.canonicalText (stamp sets doc labels) = lib.canonicalText tried

/-! ### Texts and policies -/

section

variable {policy : AdmissionPolicy} {lib : RepoLibrary Expr} {engine : RuleEngine} {resolved : ResolvedRepo}
  {labels : Labels} {doc : Mapping} {sets : List GatewaySet}

/-- A node is served exactly when its document passes. -/
theorem serves_iff_passes (assembled : lib.assembleFlatDoc resolved.files = .ok doc)
    (read : lib.readGatewaysets resolved.files = .ok sets) :
    Serves policy lib engine resolved labels ↔ policy.Passes lib engine (stamp sets doc labels) := by
  have rendering : lib.renderResolvedForNode resolved sets labels = lib.finalize (stamp sets doc labels) resolved := by
    rw [RepoLibrary.renderResolvedForNode, assembled]
    rfl
  constructor
  · rintro ⟨⟨others, rendered, flat, readToo, made, decoded, judged⟩, -⟩
    obtain rfl := Except.ok.inj (read.symm.trans readToo)
    obtain ⟨text, finalized, written, accepted, rfl⟩ := RepoLibrary.finalize_ok.mp (rendering.symm.trans made)
    rw [Text.fromUtf8?_bytes, Option.some.injEq] at decoded
    exact ⟨text, written, decoded ▸ judged⟩
  · rintro ⟨flat, written, judged⟩
    obtain ⟨finalized, accepted, -⟩ := AdmissionPolicy.admitYaml_admits.mp judged
    have made := rendering.trans (RepoLibrary.finalize_ok.mpr ⟨flat, finalized, written, accepted, rfl⟩)
    refine ⟨⟨sets, _, flat, read, made, Text.fromUtf8?_bytes flat, judged⟩, ?_⟩
    rintro fleet inputs desired rfl ⟨-, others, e, desiredToo, failed⟩
    obtain rfl := Option.some.inj (desired.symm.trans desiredToo)
    rw [RepoLibrary.texts_renderResolvedForNode read, made] at failed
    cases failed

/-- Whether a document passes is up to its canonical text. -/
theorem Passes.of_text {other : Mapping} (same : lib.canonicalText doc = lib.canonicalText other)
    (passes : policy.Passes lib engine other) : policy.Passes lib engine doc := by
  obtain ⟨flat, written, judged⟩ := passes
  exact ⟨flat, same.trans written, judged⟩

end

/-- Admission has tried the labels that match no set, and those that match the same sets as the labels that stand for
    one of them. -/
theorem tried_of_matchingSets {lib : RepoLibrary Expr} {resolved : ResolvedRepo} {labels : Labels} {doc : Mapping}
    {sets : List GatewaySet} (assembled : lib.assembleFlatDoc resolved.files = .ok doc)
    (read : lib.readGatewaysets resolved.files = .ok sets)
    (alike : matchingSets sets labels = [] ∨
      ∃ set ∈ sets, matchingSets sets labels = matchingSets sets (representativeLabels set.selector)) :
    Tried lib resolved labels := by
  refine ⟨doc, sets, assembled, read, ?_⟩
  rcases alike with none | ⟨set, listed, same⟩
  · refine ⟨doc, List.mem_cons_self, ?_⟩
    rw [stamp, none, List.foldl_nil]
  · refine ⟨_, List.mem_cons_of_mem _ (List.mem_map_of_mem listed), ?_⟩
    rw [stamp, same, stamp]

/-- A rule language in which every rule lets through these texts and no others. -/
def RuleEngine.only (engine : RuleEngine) (texts : List String) : RuleEngine :=
  { engine with
    readJson := fun text => .ok (.string text)
    addVariable := fun _ => .ok ()
    compile := fun _ => .ok fun doc => .ok (.bool (doc.asStr.any texts.contains)) }

/-- A policy with one rule of that language. -/
def AdmissionPolicy.oneRule (factor : Option Float) : AdmissionPolicy := ⟨[⟨"", "", ""⟩], factor⟩

/-- What passes the rules of an operator passes without them. -/
theorem admitYaml_builtin {lib : RepoLibrary Expr} {engine : RuleEngine} {factor : Option Float} {rules : List CelRule}
    {flat : String} (judged : (AdmissionPolicy.mk rules factor).admitYaml lib engine flat = .ok .admits) :
    (AdmissionPolicy.mk [] factor).admitYaml lib engine flat = .ok .admits := by
  obtain ⟨finalized, accepted, builtin, -⟩ := AdmissionPolicy.admitYaml_admits.mp judged
  exact AdmissionPolicy.admitYaml_admits.mpr ⟨finalized, accepted, builtin, rfl⟩

/-- The rule stands beside the built-in ones. -/
theorem admitYaml_only {lib : RepoLibrary Expr} {engine : RuleEngine} {factor : Option Float} {texts : List String}
    {flat : String} :
    (AdmissionPolicy.oneRule factor).admitYaml lib (engine.only texts) flat = .ok .admits ↔
      flat ∈ texts ∧ (AdmissionPolicy.mk [] factor).admitYaml lib engine flat = .ok .admits := by
  have verdict : (AdmissionPolicy.oneRule factor).ruleFailures (engine.only texts) flat = [] ↔ flat ∈ texts := by
    simp only [AdmissionPolicy.ruleFailures, AdmissionPolicy.oneRule, RuleEngine.only, evalCelRule, candidateToJson,
      Except.toOption, Option.getD_some, Json.Value.asStr, Option.any_some, List.filterMap_cons, List.filterMap_nil]
    cases listed : texts.contains flat with
    | true => simpa using listed
    | false => simpa using listed
  rw [AdmissionPolicy.admitYaml_admits, AdmissionPolicy.admitYaml_admits, verdict]
  constructor
  · rintro ⟨finalized, accepted, builtin, listed⟩
    exact ⟨listed, finalized, accepted, builtin, rfl⟩
  · rintro ⟨listed, finalized, accepted, builtin, -⟩
    exact ⟨finalized, accepted, builtin, listed⟩

/-! ### For which labels admission is sound -/

/-- A repo is sure to serve a node, under every set of rules that admits it, exactly when admission has looked at the
    text the node gets. A repo that no rules admit is not looked at further. -/
theorem soundFor_iff (lib : RepoLibrary Expr) (factor : Option Float) (resolved : ResolvedRepo) (labels : Labels) :
    (∀ (engine : RuleEngine) (rules : List CelRule), SoundFor ⟨rules, factor⟩ lib engine resolved labels) ↔
      Tried lib resolved labels ∨
        ∀ (engine : RuleEngine) (rules : List CelRule),
          AdmissionPolicy.admitResolved ⟨rules, factor⟩ lib engine resolved ≠ .ok .admits := by
  constructor
  · intro sound
    by_contra neither
    obtain ⟨untried, admits⟩ := not_or.mp neither
    obtain ⟨engine, admits⟩ := not_forall.mp admits
    obtain ⟨rules, admits⟩ := not_forall.mp admits
    obtain ⟨doc, sets, assembled, read, passed, canary⟩ := AdmissionPolicy.admitResolved_admits.mp (not_not.mp admits)
    -- one more rule that lets through what admission looks at, and nothing else
    let texts := (triedDocs sets doc).filterMap fun tried => (lib.canonicalText tried).toOption
    have admitted : (AdmissionPolicy.oneRule factor).admitResolved lib (engine.only texts) resolved = .ok .admits := by
      refine AdmissionPolicy.admitResolved_admits.mpr ⟨doc, sets, assembled, read, ?_, canary⟩
      intro tried listed
      obtain ⟨flat, written, judged⟩ := passed tried listed
      have among : flat ∈ texts := List.mem_filterMap.mpr ⟨tried, listed, by rw [written]; rfl⟩
      exact ⟨flat, written, admitYaml_only.mpr ⟨among, admitYaml_builtin judged⟩⟩
    have served := sound (engine.only texts) [⟨"", "", ""⟩] admitted
    obtain ⟨flat, written, judged⟩ := (serves_iff_passes assembled read).mp served
    obtain ⟨among, -⟩ := admitYaml_only.mp judged
    obtain ⟨tried, listed, same⟩ := List.mem_filterMap.mp among
    refine untried ⟨doc, sets, assembled, read, tried, listed, written.trans ?_⟩
    cases other : lib.canonicalText tried with
    | error e => simp [other, Except.toOption] at same
    | ok text => simpa [other, Except.toOption, eq_comm] using same
  · rintro (⟨doc, sets, assembled, read, tried, listed, same⟩ | never) engine rules admitted
    · obtain ⟨others, readOthers, assembledToo, readToo, passed, -⟩ := AdmissionPolicy.admitResolved_admits.mp admitted
      obtain rfl := Except.ok.inj (assembled.symm.trans assembledToo)
      obtain rfl := Except.ok.inj (read.symm.trans readToo)
      exact (serves_iff_passes assembled read).mpr (Passes.of_text same (passed tried listed))
    · exact absurd admitted (never engine rules)

/-! ### Two sets that a node can match together -/

namespace TwoSets

/-- The lines of an item of a sequence. -/
def itemLines : List (List Char) → List (List Char)
  | [] => []
  | first :: rest => ('-' :: ' ' :: first) :: rest.map fun line => ' ' :: ' ' :: line

/-- The lines of a value under its key. -/
def underKey (key : List Char) (lines : List (List Char)) : Yaml.Value → List (List Char)
  | .mapping _ => (key ++ [':']) :: lines.map fun line => ' ' :: ' ' :: line
  | .sequence _ => (key ++ [':']) :: lines
  | _ => [key ++ ':' :: ' ' :: lines.flatten]

mutual

/-- The lines of a document in block style, where no text has to be quoted. -/
def lines : Yaml.Value → List (List Char)
  | .null => ["null".toList]
  | .bool value => [(if value then "true" else "false").toList]
  | .number text => [text.toList]
  | .string text => [text.toList]
  | .sequence items => sequenceLines items
  | .mapping entries => mappingLines entries
  | .tagged tag value => ('!' :: tag.toList) :: lines value
termination_by structural value => value

def sequenceLines : List Yaml.Value → List (List Char)
  | [] => []
  | item :: rest => itemLines (lines item) ++ sequenceLines rest
termination_by structural items => items

def mappingLines : List (Yaml.Key × Yaml.Value) → List (List Char)
  | [] => []
  | entry :: rest => entryLines entry ++ mappingLines rest
termination_by structural entries => entries

def entryLines : Yaml.Key × Yaml.Value → List (List Char)
  | (key, value) => underKey key.text.toList (lines value) value
termination_by structural entry => entry

end

def chars (doc : Yaml.Value) : List Char := (lines doc).flatMap (· ++ ['\n'])

/-- The text of a document. -/
def text (doc : Yaml.Value) : String := String.ofList (chars doc)

mutual

/-- A document in the rule language. -/
def jsonValue : Yaml.Value → Json.Value
  | .null => .null
  | .bool value => .bool value
  | .number text => .number (.posInt (text.toNat?.getD 0))
  | .string text => .string text
  | .sequence items => .array (jsonItems items)
  | .mapping entries => .object (jsonFields entries)
  | .tagged _ value => jsonValue value
termination_by structural value => value

def jsonItems : List Yaml.Value → List Json.Value
  | [] => []
  | item :: rest => jsonValue item :: jsonItems rest
termination_by structural items => items

def jsonFields : List (Yaml.Key × Yaml.Value) → List (String × Json.Value)
  | [] => []
  | entry :: rest => jsonField entry :: jsonFields rest
termination_by structural entries => entries

def jsonField : Yaml.Key × Yaml.Value → String × Json.Value
  | (key, value) => (key.text, jsonValue value)
termination_by structural entry => entry

end

/-- What a text is read as, when it is that of one of these documents. -/
def readAmong {α : Type} (known : List (Yaml.Value × α)) (read : String) : Except String α :=
  match known.find? fun entry => chars entry.1 == read.toList with
  | some (_, value) => .ok value
  | none => .error "did not find expected node content"

theorem readAmong_mem {α : Type} (known : List (Yaml.Value × α))
    (distinct : (known.map fun entry => chars entry.1).Nodup) {doc : Yaml.Value} {value : α}
    (listed : (doc, value) ∈ known) : readAmong known (text doc) = .ok value := by
  rw [readAmong, text, String.toList_ofList]
  cases found : known.find? fun entry => chars entry.1 == chars doc with
  | none => exact absurd (List.find?_eq_none.mp found _ listed) (by simp)
  | some entry =>
    have same : chars entry.1 = chars doc := by simpa using List.find?_some found
    rw [List.inj_on_of_nodup_map distinct (List.mem_of_find?_eq_some found) listed same]

theorem readAmong_singleton {α : Type} (doc : Yaml.Value) (value : α) : readAmong [(doc, value)] (text doc) = .ok value :=
  readAmong_mem [(doc, value)] (List.nodup_singleton (chars doc)) List.mem_cons_self

theorem not_isBlank_text {doc : Yaml.Value} (filled : (chars doc).all Text.isWhitespace = false) :
    ¬ Text.isBlank (text doc) = true := by
  rw [Text.isBlank, text, String.toList_ofList, filled]
  exact Bool.false_ne_true

/-- A mapping under names. -/
def named (entries : List (String × Yaml.Value)) : Yaml.Value :=
  .mapping (entries.map fun (name, value) => (.string name, value))

def providersDoc : Yaml.Value :=
  named [("p", named [("kind", .string "openai"), ("upstream", named [("host", .string "h"), ("port", .number "1")])])]

/-- The scope of the fleet, with these caller headers. -/
def fleetDoc (headers : List (String × String)) : Yaml.Value :=
  named [("attribution", named [("headers", named (headers.map fun (key, name) => (key, .string name))),
    ("required_keys", .sequence [.string "team"])])]

def routeDoc : Yaml.Value := named [("prefix", .string "/"), ("provider", .string "p")]

def templateDoc (status : String) : Yaml.Value :=
  named [("body", .string "x"), ("content_type", .string "t"), ("status", .number status)]

def rejectionsDoc : Yaml.Value := named [("default_response", templateDoc "428"), ("unknown_route", templateDoc "404")]

def teamHeader : String × String := ("team", "x-team")

/-- An overlay that names the same header for one more key. -/
def overlay (key : String) : Mapping :=
  [(.string "fleet", named [("attribution", named [("headers", named [(key, .string "x-a")])])])]

def setDoc (name label value key : String) : Yaml.Value :=
  named [("name", .string name), ("overlay", .mapping (overlay key)), ("selector", named [(label, .string value)])]

def setsDoc : Yaml.Value :=
  named [("gatewaysets", .sequence [setDoc "eu" "region" "eu" "env", setDoc "gold" "tier" "gold" "cost"])]

/-- A selector with one term, as it is written. -/
def selector (label value : String) : Std.TreeMap String SelectorValue :=
  (∅ : Std.TreeMap String SelectorValue).insert label (.one value)

def setEntries : List GatewaySetEntry :=
  [⟨"eu", selector "region" "eu", overlay "env"⟩, ⟨"gold", selector "tier" "gold", overlay "cost"⟩]

def sets : List GatewaySet :=
  [⟨"eu", ⟨[⟨"region", ["eu"]⟩]⟩, overlay "env"⟩, ⟨"gold", ⟨[⟨"tier", ["gold"]⟩]⟩, overlay "cost"⟩]

/-- Two waves. -/
def wavesDoc : Yaml.Value :=
  named [("waves", .sequence [named [("name", .string "a"), ("selector", named [("tier", .string "gold")])],
    named [("name", .string "b"), ("selector", named [("tier", .string "basic")])]])]

def waveEntries : List WaveEntry := [⟨"a", selector "tier" "gold"⟩, ⟨"b", selector "tier" "basic"⟩]

/-- The flat document of the repo, with these caller headers of the fleet. -/
def flatDoc (headers : List (String × String)) : Yaml.Value :=
  named [("fleet", fleetDoc headers), ("providers", providersDoc), ("rejections", rejectionsDoc),
    ("routes", .sequence [routeDoc])]

def route : Config.Route := ⟨"/", "p", none, none, ⟨⟨[], ∅, ∅, ∅, ∅, ∅, none⟩, [], none⟩⟩

/-- The config that this document is. -/
def config (headers : List (String × String)) : Config where
  providers := (∅ : Named Config.Provider).insert "p" ⟨.openai, ⟨"h", 1⟩, none, none, none, none⟩
  fleet := some
    ⟨⟨["team"], headers.foldl (fun named (key, name) => named.insert key name) ∅, ∅, ∅, ∅, ∅, none⟩, [], none⟩
  projects := ∅
  routes := [route]
  apps := none
  rejections := ⟨⟨428, "t", "x", none⟩, ⟨404, "t", "x", none⟩, none, none, none⟩
  jwt := none
  otlp := none
  webhook := none
  wasm := ⟨[], false⟩

def euHeaders : List (String × String) := [("env", "x-a"), teamHeader]

def goldHeaders : List (String × String) := [("cost", "x-a"), teamHeader]

def bothHeaders : List (String × String) := [("cost", "x-a"), ("env", "x-a"), teamHeader]

/-- The fragments of the repo. -/
def fragments : List (Yaml.Value × Yaml.Value) :=
  [providersDoc, fleetDoc [teamHeader], routeDoc, rejectionsDoc].map fun doc => (doc, doc)

/-- The flat documents of the repo: without a stamp, with that of one set, and with both. -/
def flats : List (Yaml.Value × List (String × String)) :=
  [[teamHeader], euHeaders, goldHeaders, bothHeaders].map fun headers => (flatDoc headers, headers)

def lib : RepoLibrary Empty where
  parse := readAmong fragments
  write doc := .ok (text doc)
  readConfig flat := (readAmong flats flat).map config
  readWaves := readAmong [(wavesDoc, waveEntries)]
  readSets := readAmong [(setsDoc, setEntries)]
  readCanary := readAmong []
  utf8Error _ := "invalid utf-8 sequence"
  debugValue := text
  compilers := noExpressions
  contentHash flat := flat

/-- A rule language with the expression that the control plane has. -/
def engine : RuleEngine where
  readJson flat := (readAmong flats flat).map fun headers => jsonValue (flatDoc headers)
  addVariable _ := .ok ()
  compile expr :=
    if expr = "size(config.routes) > 0" then .ok fun doc => .ok (.bool (0 < (doc.get "routes").asArray.length))
    else .error "unknown expression"
  parseF64 _ := none
  displayF64 _ := ""

/-- The files of the repo, with this text for the waves. -/
def files (waves : String) : RepoFiles :=
  [("fleet/base.chain.yaml", (text (fleetDoc [teamHeader])).toUTF8.toList),
    ("gatewaysets.yaml", (text setsDoc).toUTF8.toList), ("providers.yaml", (text providersDoc).toUTF8.toList),
    ("rejections.yaml", (text rejectionsDoc).toUTF8.toList), ("routes/r.route.yaml", (text routeDoc).toUTF8.toList),
    ("waves.yaml", waves.toUTF8.toList)]

def repo (waves : String) : ResolvedRepo := ⟨files waves, "dir-0123456789abcdef"⟩

/-! The repo is read as these documents. -/

/-- The document of the repo without a stamp. -/
def baseDoc : Mapping :=
  [(.string "providers", Yaml.sortedValue providersDoc), (.string "fleet", Yaml.sortedValue (fleetDoc [teamHeader])),
    (.string "routes", .sequence [Yaml.sortedValue routeDoc]), (.string "rejections", Yaml.sortedValue rejectionsDoc)]

/-- Each fragment is read as what it was written from. -/
theorem fragment_parsed {doc : Yaml.Value}
    (listed : doc ∈ [providersDoc, fleetDoc [teamHeader], routeDoc, rejectionsDoc]) : lib.parse (text doc) = .ok doc := by
  have distinct : (fragments.map fun entry => chars entry.1).Nodup := by decide +kernel
  have same : lib.parse = readAmong fragments := rfl
  rw [same]
  exact readAmong_mem fragments distinct (List.mem_map_of_mem listed)

theorem assembled (waves : String) : lib.assembleFlatDoc (files waves) = .ok baseDoc := by
  have providers : lib.readYamlMapping (files waves) "providers.yaml" = .ok (some (Yaml.sortedValue providersDoc)) :=
    RepoLibrary.readYamlMapping_text rfl (fragment_parsed (by simp))
  have fleet : lib.readYamlMapping (files waves) "fleet/base.chain.yaml" =
      .ok (some (Yaml.sortedValue (fleetDoc [teamHeader]))) :=
    RepoLibrary.readYamlMapping_text rfl (fragment_parsed (by simp))
  have rejections : lib.readYamlMapping (files waves) "rejections.yaml" = .ok (some (Yaml.sortedValue rejectionsDoc)) :=
    RepoLibrary.readYamlMapping_text rfl (fragment_parsed (by simp))
  have route : lib.parseYamlValue (text routeDoc).toUTF8.toList "routes/r.route.yaml" = .ok routeDoc :=
    RepoLibrary.parseYamlValue_text (fragment_parsed (by simp))
  have projects : lib.readProjects (files waves) = .ok [] := by
    have none : (files waves).projectNames = [] := rfl
    rw [RepoLibrary.readProjects, none]
    rfl
  have routes : lib.readRoutes (files waves) = .ok [Yaml.sortedValue routeDoc] := by
    have one : (files waves).routeFiles = [("r.route.yaml", (text routeDoc).toUTF8.toList)] := rfl
    have path : "routes/" ++ "r.route.yaml" = "routes/r.route.yaml" := rfl
    rw [RepoLibrary.readRoutes, one, List.mapM_cons, List.mapM_nil]
    simp only [path, route]
    rfl
  have apps : lib.readYamlMapping (files waves) "apps.yaml" = .ok none := RepoLibrary.readYamlMapping_absent rfl
  have auth : lib.readYamlMapping (files waves) "auth.yaml" = .ok none := RepoLibrary.readYamlMapping_absent rfl
  simp only [RepoLibrary.assembleFlatDoc, RepoLibrary.readRequired, providers, fleet, projects, routes, rejections,
    apps, auth]
  rfl

theorem gatewaySet_read {name label value key : String} (filled : Text.isBlank name = false) :
    GatewaySetEntry.gatewaySet ⟨name, selector label value, overlay key⟩ =
      .ok ⟨name, ⟨[⟨label, [value]⟩]⟩, overlay key⟩ := by
  rw [GatewaySetEntry.gatewaySet, if_neg (by simp [filled])]
  rfl

theorem sets_parsed : parseGatewaysets lib.readSets (text setsDoc) = .ok sets := by
  have filled : ¬ Text.isBlank (text setsDoc) = true := not_isBlank_text (by decide +kernel)
  have entries : lib.readSets (text setsDoc) = .ok setEntries := by
    have same : lib.readSets = readAmong [(setsDoc, setEntries)] := rfl
    rw [same]
    exact readAmong_singleton setsDoc setEntries
  have each : setEntries.mapM GatewaySetEntry.gatewaySet = .ok sets := by
    refine Fallible.mapM_cons_ok.mpr ⟨_, _, gatewaySet_read (by decide), ?_, rfl⟩
    exact Fallible.mapM_cons_ok.mpr ⟨_, _, gatewaySet_read (by decide), rfl, rfl⟩
  have ordered : (sets.insertionSort fun a b => a.name ≤ b.name) = sets := by simp [sets, List.insertionSort]
  have distinct : duplicateName [] (sets.map (·.name)) = none := by decide
  rw [parseGatewaysets, if_neg filled, entries]
  simp only [bind, Except.bind, each, ordered, distinct, Except.mapError]

theorem sets_read (waves : String) : lib.readGatewaysets (files waves) = .ok sets := by
  have there : (files waves).lookup "gatewaysets.yaml" = some (text setsDoc).toUTF8.toList := rfl
  rw [RepoLibrary.readGatewaysets, RepoLibrary.readSideFile_text there, sets_parsed]
  rfl

/-! Each set alone makes a config that is admitted. -/

def finalized (headers : List (String × String)) : Config.Finalized Empty :=
  ⟨config headers, [(route, Config.compileRoute noExpressions (config headers) route)]⟩

section

variable {headers : List (String × String)} (read : readAmong flats (text (flatDoc headers)) = .ok headers)

include read

theorem flat_accepted (valid : Config.configErrors noExpressions (config headers) = []) :
    lib.fromYaml (text (flatDoc headers)) = .ok (finalized headers) := by
  have known (flat : String) : lib.readConfig flat = (readAmong flats flat).map config := rfl
  have compilers : lib.compilers = noExpressions := rfl
  have accepted : Config.finalize noExpressions (config headers) = .ok (finalized headers) := by
    rw [Config.finalize, if_pos (List.isEmpty_iff.mpr valid)]
    rfl
  simp only [RepoLibrary.fromYaml, known, read, Except.map, compilers, accepted, Except.mapError]

theorem flat_refused (invalid : Config.configErrors noExpressions (config headers) ≠ []) :
    ∃ e, lib.fromYaml (text (flatDoc headers)) = .error e := by
  have known (flat : String) : lib.readConfig flat = (readAmong flats flat).map config := rfl
  have compilers : lib.compilers = noExpressions := rfl
  have refused : Config.finalize noExpressions (config headers) =
      .error (Config.configErrors noExpressions (config headers)) := by
    rw [Config.finalize, if_neg (mt List.isEmpty_iff.mp invalid)]
  refine ⟨invalidConfig (Config.configErrors noExpressions (config headers)), ?_⟩
  simp only [RepoLibrary.fromYaml, known, read, Except.map, compilers, refused, Except.mapError]

theorem rules_pass : AdmissionPolicy.serve.ruleFailures engine (text (flatDoc headers)) = [] := by
  have known (flat : String) :
      engine.readJson flat = (readAmong flats flat).map fun headers => jsonValue (flatDoc headers) := rfl
  have doc : candidateToJson engine (text (flatDoc headers)) = jsonValue (flatDoc headers) := by
    rw [candidateToJson, known, read]
    rfl
  have routes : ((jsonValue (flatDoc headers)).get "routes").asArray = [jsonValue routeDoc] := rfl
  have compiled : engine.compile "size(config.routes) > 0" =
      .ok fun doc => .ok (.bool (0 < (doc.get "routes").asArray.length)) := by
    simp [engine]
  have bound : engine.addVariable (jsonValue (flatDoc headers)) = .ok () := rfl
  simp only [AdmissionPolicy.ruleFailures, doc, AdmissionPolicy.serve, List.filterMap_cons, evalCelRule, compiled,
    bound, routes]
  rfl

theorem flat_admitted (valid : Config.configErrors noExpressions (config headers) = [])
    (attributed : attributionKeysPresent (finalized headers) = [])
    (plain : Config.scanDirectives none (chars (flatDoc headers)) = []) :
    AdmissionPolicy.serve.admitYaml lib engine (text (flatDoc headers)) = .ok .admits := by
  refine AdmissionPolicy.admitYaml_admits.mpr ⟨finalized headers, flat_accepted read valid, ?_, rules_pass read⟩
  have constructs : Config.noForbiddenConstruct (text (flatDoc headers)) = [] := by
    rw [Config.noForbiddenConstruct, Config.directives, text, String.toList_ofList, plain]
    rfl
  have templates : rejectionTemplatesPresent (config headers) = [] := by
    have filled : Text.isBlank "x" = false := by decide
    simp [rejectionTemplatesPresent, config, filled]
  have overrides (factor : Float) : overrideGovernance engine factor (config headers) = [] := rfl
  have modules : noUnsignedWasmModule (config headers) = [] := rfl
  have same : (finalized headers).config = config headers := rfl
  simp only [AdmissionPolicy.builtinFailures, same, attributed, constructs, templates, overrides, modules,
    List.append_nil]

end

theorem canonicalText_eq {doc : Mapping} {headers : List (String × String)}
    (written : chars (Yaml.sortedValue (.mapping doc)) = chars (flatDoc headers)) :
    lib.canonicalText doc = .ok (text (flatDoc headers)) :=
  congrArg (fun chars => Except.ok (String.ofList chars)) written

/-- Each flat document of the repo is read as the one with its headers. -/
theorem flat_read {headers : List (String × String)}
    (listed : headers ∈ [[teamHeader], euHeaders, goldHeaders, bothHeaders]) :
    readAmong flats (text (flatDoc headers)) = .ok headers := by
  have distinct : (flats.map fun entry => chars entry.1).Nodup := by decide +kernel
  exact readAmong_mem flats distinct (List.mem_map.mpr ⟨headers, listed, rfl⟩)

/-- The labels of a node that both sets match. -/
def euGold : Labels := ((∅ : Labels).insert "region" "eu").insert "tier" "gold"

/-- The documents of the repo are written as these: without a stamp, for each set, and for both. -/
theorem flats_written :
    ∀ written ∈ [(baseDoc, [teamHeader]),
        (stamp sets baseDoc (representativeLabels ⟨[⟨"region", ["eu"]⟩]⟩), euHeaders),
        (stamp sets baseDoc (representativeLabels ⟨[⟨"tier", ["gold"]⟩]⟩), goldHeaders),
        (stamp sets baseDoc euGold, bothHeaders)],
      chars (Yaml.sortedValue (.mapping written.1)) = chars (flatDoc written.2) := by
  decide +kernel

theorem base_read : readAmong flats (text (flatDoc [teamHeader])) = .ok [teamHeader] := flat_read (by simp)

theorem base_written : lib.canonicalText baseDoc = .ok (text (flatDoc [teamHeader])) :=
  canonicalText_eq (flats_written _ List.mem_cons_self)

/-- Without a stamp and with that of one set the config has no errors and enforces a key, and its text is without
    directives. -/
theorem flats_valid : ∀ headers ∈ [[teamHeader], euHeaders, goldHeaders],
    Config.configErrors noExpressions (config headers) = [] ∧ attributionKeysPresent (finalized headers) = [] ∧
      Config.scanDirectives none (chars (flatDoc headers)) = [] := by
  decide +kernel

/-- A document with the text of one of these passes. -/
theorem flat_passes {headers : List (String × String)} {doc : Mapping}
    (listed : headers ∈ [[teamHeader], euHeaders, goldHeaders])
    (read : readAmong flats (text (flatDoc headers)) = .ok headers)
    (written : lib.canonicalText doc = .ok (text (flatDoc headers))) :
    AdmissionPolicy.serve.Passes lib engine doc := by
  obtain ⟨valid, attributed, plain⟩ := flats_valid headers listed
  exact ⟨text (flatDoc headers), written, flat_admitted read valid attributed plain⟩

theorem admitted (waves : String) : AdmissionPolicy.serve.admitResolved lib engine (repo waves) = .ok .admits := by
  have absent : lib.readCanaryPolicy (files waves) = .ok defaultCanaryPolicy := rfl
  refine AdmissionPolicy.admitResolved_admits.mpr ⟨baseDoc, sets, assembled waves, sets_read waves, ?_, _, absent⟩
  simp only [triedDocs, List.forall_mem_cons, List.forall_mem_map, sets, List.not_mem_nil, false_implies, implies_true,
    and_true]
  refine ⟨?_, ?_, ?_⟩
  · exact flat_passes (by simp) base_read base_written
  · exact flat_passes (by simp) (flat_read (by simp)) (canonicalText_eq (flats_written _ (.tail _ (.head _))))
  · exact flat_passes (by simp) (flat_read (by simp)) (canonicalText_eq (flats_written _ (.tail _ (.tail _ (.head _)))))

/-- The render of the repo without a stamp. -/
def rendered : Rendered :=
  ⟨(text (flatDoc [teamHeader])).toUTF8.toList, text (flatDoc [teamHeader]), "dir-0123456789abcdef"⟩

theorem renders (waves : String) : lib.renderResolved (repo waves) = .ok rendered := by
  have accepted := flat_accepted base_read (flats_valid _ List.mem_cons_self).1
  rw [RepoLibrary.renderResolved]
  exact Fallible.bind_ok.mpr
    ⟨baseDoc, assembled waves, RepoLibrary.finalize_ok.mpr ⟨_, _, base_written, accepted, rfl⟩⟩

def wavePlan : WavePlan := ⟨[⟨"a", ⟨[⟨"tier", ["gold"]⟩]⟩⟩, ⟨"b", ⟨[⟨"tier", ["basic"]⟩]⟩⟩]⟩

theorem waves_parsed : parseWavePlan lib.readWaves (text wavesDoc) = .ok wavePlan := by
  have filled : ¬ Text.isBlank (text wavesDoc) = true := not_isBlank_text (by decide)
  have entries : lib.readWaves (text wavesDoc) = .ok waveEntries := by
    have same : lib.readWaves = readAmong [(wavesDoc, waveEntries)] := rfl
    rw [same]
    exact readAmong_singleton wavesDoc waveEntries
  have some : waveEntries.isEmpty = false := rfl
  have each : waveEntries.mapM WaveEntry.wave = .ok wavePlan.waves := rfl
  have distinct : duplicateName [] (wavePlan.waves.map (·.name)) = none := by decide
  rw [parseWavePlan, if_neg filled, entries]
  simp only [bind, Except.bind, some, Bool.false_eq_true, if_false, each, distinct, Except.mapError]

/-- The repo with two waves has its plan read. -/
theorem waves_read : lib.readWavePlan (repo (text wavesDoc)).files = .ok wavePlan := by
  have there : (repo (text wavesDoc)).files.lookup "waves.yaml" = some (text wavesDoc).toUTF8.toList := rfl
  rw [RepoLibrary.readWavePlan, RepoLibrary.readSideFile_text there, waves_parsed]
  rfl

/-- A wave plan whose sequence is not closed. -/
theorem broken_waves : ∃ e, lib.readWavePlan (repo "waves: [").files = .error e := by
  have there : (repo "waves: [").files.lookup "waves.yaml" = some "waves: [".toUTF8.toList := rfl
  have filled : ¬ Text.isBlank "waves: [" = true := by decide
  have failed : lib.readWaves "waves: [" = .error "did not find expected node content" := by
    have same : lib.readWaves = readAmong [(wavesDoc, waveEntries)] := rfl
    have none : ([(wavesDoc, waveEntries)].find? fun entry => chars entry.1 == "waves: [".toList) = none := by
      rw [List.find?_eq_none]
      decide +kernel
    rw [same, readAmong, none]
  rw [RepoLibrary.readWavePlan, RepoLibrary.readSideFile_text there, parseWavePlan, if_neg filled, failed]
  exact ⟨_, rfl⟩

end TwoSets

/-- Two sets that each pass alone name one header for two keys, and the repo of both is admitted. A node that matches
    both has no render of its own. -/
theorem overlapping_sets_unserved :
    ¬ ∀ (policy : AdmissionPolicy) (lib : RepoLibrary Empty) (engine : RuleEngine) (resolved : ResolvedRepo)
      (labels : Labels), SoundFor policy lib engine resolved labels := by
  intro claimed
  have served := claimed .serve TwoSets.lib TwoSets.engine (TwoSets.repo "") TwoSets.euGold (TwoSets.admitted "")
  obtain ⟨flat, written, judged⟩ := (serves_iff_passes (TwoSets.assembled "") (TwoSets.sets_read "")).mp served
  have both : TwoSets.lib.canonicalText (stamp TwoSets.sets TwoSets.baseDoc TwoSets.euGold) =
      .ok (TwoSets.text (TwoSets.flatDoc TwoSets.bothHeaders)) :=
    TwoSets.canonicalText_eq (TwoSets.flats_written _ (.tail _ (.tail _ (.tail _ (.head _)))))
  obtain rfl := Except.ok.inj (both.symm.trans written)
  obtain ⟨finalized, accepted, -⟩ := AdmissionPolicy.admitYaml_admits.mp judged
  obtain ⟨e, refused⟩ := TwoSets.flat_refused (TwoSets.flat_read (by simp))
    (by decide +kernel : Config.configErrors noExpressions (TwoSets.config TwoSets.bothHeaders) ≠ [])
  rw [accepted] at refused
  cases refused

end SmallGateway
