import SmallGateway.CallerRaw
import SmallGateway.Lib.Maps

/-!
Two readers of the placeholders in one config. The node (`gateway-core/src/validate.rs`) knows the placeholders of each
rejection template and of the values the operator decides, and refuses a config that names another. The admission gate
of the control plane (`gatewayctl/src/admission.rs`) scans the whole text of the config instead, and lets two
placeholders through. The main result says when the gate blocks what the node would not substitute, and nothing else
(`gate_agrees_iff`).
-/

namespace SmallGateway.Config

/-! ### The gate -/

/-- One failure of admission: the rule, and what it found. -/
structure RuleFailure where
  rule : String
  detail : String
  deriving DecidableEq, Repr

/-- Scans a text from the left. Inside a directive the state is what was read of it, in reverse. -/
def scanDirectives : Option (List Char) → List Char → List String
  | none, [] => []
  | none, '{' :: '{' :: rest => scanDirectives (some ['{', '{']) rest
  | none, _ :: rest => scanDirectives none rest
  | some opened, [] => [String.ofList opened.reverse]
  | some opened, '}' :: '}' :: rest => String.ofList ('}' :: '}' :: opened).reverse :: scanDirectives none rest
  | some opened, c :: rest => scanDirectives (some (c :: opened)) rest

/-- The directives of a text: each reaches from its opening braces to the next closing ones, or to the end. -/
def directives (flatYaml : String) : List String := scanDirectives none flatYaml.toList

/-- `trim_start_matches`, for the opening braces. -/
def trimOpening : List Char → List Char
  | '{' :: '{' :: rest => trimOpening rest
  | text => text

/-- What `trim_end_matches` leaves of a text in reverse, for the closing braces. -/
def trimClosing : List Char → List Char
  | '}' :: '}' :: rest => trimClosing rest
  | text => text

/-- A directive without the white space inside its braces. -/
def normalized (directive : String) : String :=
  braced (Text.trim (String.ofList (trimClosing (trimOpening directive.toList).reverse).reverse))

def allowedDirectives : List String := ["\x7b\x7bkey\x7d\x7d", "\x7b\x7broute\x7d\x7d"]

/-- The gate lets the directive through. -/
def passes (directive : String) : Bool := allowedDirectives.contains (normalized directive)

def forbidden (directive : String) : RuleFailure where
  rule := "no-forbidden-construct"
  detail := "candidate contains a templating directive " ++ Text.debugStr directive ++
    " outside the allowed rejection-body placeholders [" ++
    String.intercalate ", " (allowedDirectives.map Text.debugStr) ++
    "] — in-gateway templating is banned so the reviewed diff is the served diff (docs/07)"

/-- The first directive that is not let through is reported, and ends the scan. -/
def checkDirectives : List String → List RuleFailure
  | [] => []
  | directive :: rest => if passes directive then checkDirectives rest else [forbidden directive]

def noForbiddenConstruct (flatYaml : String) : List RuleFailure := checkDirectives (directives flatYaml)

/-! ### What the node substitutes -/

/-- The reasons for which a request is refused with a template of the operator. -/
inductive Reason where
  | defaultResponse
  | unknownRoute
  | modelNotAllowed
  | valueNotAllowed
  | capExceeded
  deriving DecidableEq, Repr

namespace Reason

/-- The template that a scope sets for the reason. -/
def template (overrides : RejectionOverrides) : Reason → Option RejectionTemplate
  | defaultResponse => overrides.defaultResponse
  | unknownRoute => overrides.unknownRoute
  | modelNotAllowed => overrides.modelNotAllowed
  | valueNotAllowed => overrides.valueNotAllowed
  | capExceeded => overrides.capExceeded

/-- The variables that every refusal with the template of the reason names. -/
def named : Reason → List String
  | defaultResponse => ["key", "route"]
  | unknownRoute => ["route"]
  | modelNotAllowed => ["model", "route"]
  | valueNotAllowed => ["key", "value", "route"]
  | capExceeded => ["key", "route", "cap", "spend"]

/-- The variables a template of the reason is rendered with: the cap and the spend are added where a refusal does not
    name them. -/
def vars (reason : Reason) : List String :=
  reason.named ++ ["cap", "spend"].filter fun name => !reason.named.contains name

end Reason

/-- The template of a specification as the text has it. That of an attribution key is not written in it. -/
def written : OperatorValueSpec → Option String
  | .bare text => some text
  | .spec (some value) none => some value
  | .spec _ _ => none

/-- The placeholders of a template. -/
def names (template : String) : List String := (Template.placeholders template).toOption.getD []

/-- A template and that of its terminal event, which has the same placeholders. -/
def RejectionTemplate.texts (template : RejectionTemplate) : List String :=
  template.body :: (template.streaming.map (·.data)).toList

/-- The templates of the fleet as those of a scope that sets them. -/
def Rejections.overrides (rejections : Rejections) : RejectionOverrides :=
  ⟨some rejections.defaultResponse, some rejections.unknownRoute, rejections.modelNotAllowed,
    rejections.valueNotAllowed, rejections.capExceeded⟩

/-- Every scope of a config. -/
def scopes (cfg : Config) : List Scope :=
  cfg.fleet.toList ++ cfg.projects.values ++ cfg.routes.map (·.scope) ++
    (cfg.apps.map (·.overrides.values)).getD []

/-- The templates that a config has for a reason. -/
def rejectionTemplates (cfg : Config) (reason : Reason) : List RejectionTemplate :=
  (cfg.rejections.overrides :: (scopes cfg).filterMap (·.rejections)).filterMap fun overrides =>
    reason.template overrides

/-- The values the operator decides for a provider. -/
def providerValues (provider : Provider) : List OperatorValueSpec :=
  (provider.inject.map fun inject => inject.headers.map (·.value) ++ inject.body.map (·.value)).getD [] ++
    (provider.sts.map fun sts => [sts.roleArn, sts.sessionName]).getD []

def operatorValues (cfg : Config) : List OperatorValueSpec := cfg.providers.values.flatMap providerValues

/-- Where a directive of the text stands: in a template for a reason, in a value the operator decides, or elsewhere. -/
inductive Place where
  | rejection (reason : Reason)
  | operator (spec : OperatorValueSpec)
  | elsewhere

/-- The placeholders that the node has values for. -/
def Place.vars : Place → List String
  | .rejection reason => reason.vars
  | .operator spec => spec.keys
  | .elsewhere => []

/-- The node substitutes the directive where it stands. -/
def Place.Substitutes (place : Place) (directive : String) : Prop := ∃ name ∈ place.vars, directive = braced name

/-- The directive is a placeholder of a template of the config, when it is said to stand in one. -/
def StandsIn (cfg : Config) (directive : String) : Place → Prop
  | .rejection reason =>
    ∃ template ∈ rejectionTemplates cfg reason, ∃ text ∈ template.texts, ∃ name ∈ names text, directive = braced name
  | .operator spec =>
    spec ∈ operatorValues cfg ∧ ∃ text, written spec = some text ∧ ∃ name ∈ names text, directive = braced name
  | .elsewhere => True

/-- A text as the reader of the file format leaves it: the config, and the place of every directive of the text. -/
structure Reading (flatYaml : String) where
  config : Config
  placed : List (String × Place)
  covers : placed.map (·.1) = directives flatYaml
  stands : ∀ entry ∈ placed, StandsIn config entry.1 entry.2

/-- `Config::from_yaml`, given the reader of the file format. -/
def fromYaml {Expr : Type} (lib : Compilers Expr) (read : (flatYaml : String) → Except String (Reading flatYaml))
    (flatYaml : String) : Except (List String) (Reading flatYaml × Finalized Expr) :=
  match read flatYaml with
  | .error e => .error [e]
  | .ok reading => (finalize lib reading.config).map fun finalized => (reading, finalized)

/-- The gate passes the entries before it, and reports this one. -/
def RaisedAt (earlier : List (String × Place)) (directive : String) : Prop :=
  checkDirectives (earlier.map (·.1)) = [] ∧ checkDirectives (earlier.map (·.1) ++ [directive]) ≠ []

/-- The gate raises no failure for what the node substitutes, and blocks the text exactly when it holds a directive that
    the node does not substitute. -/
structure GateAgrees {flatYaml : String} (reading : Reading flatYaml) : Prop where
  spares : ∀ earlier directive place later, reading.placed = earlier ++ (directive, place) :: later →
    place.Substitutes directive → ¬ RaisedAt earlier directive
  blocks : noForbiddenConstruct flatYaml ≠ [] ↔ ∃ entry ∈ reading.placed, ¬ entry.2.Substitutes entry.1

/-- Every directive is the key or the route in a template, or the first one that is neither, trimmed or not, stands
    outside the templates. -/
def NothingElseUsed {flatYaml : String} (reading : Reading flatYaml) : Prop :=
  (∀ entry ∈ reading.placed, entry.1 ∈ allowedDirectives ∧ entry.2 ≠ .elsewhere) ∨
    ∃ earlier directive later, reading.placed = earlier ++ (directive, .elsewhere) :: later ∧
      (∀ entry ∈ earlier, normalized entry.1 ∈ allowedDirectives) ∧ normalized directive ∉ allowedDirectives

/-! ### How far the gate reads -/

theorem checkDirectives_eq (found : List String) :
    checkDirectives found = ((found.find? fun directive => !passes directive).map forbidden).toList := by
  induction found with
  | nil => rfl
  | cons directive rest ih =>
    rw [checkDirectives, List.find?_cons]
    cases passed : passes directive with
    | true => simpa using ih
    | false => rfl

theorem checkDirectives_nil {found : List String} :
    checkDirectives found = [] ↔ ∀ directive ∈ found, passes directive = true := by
  rw [checkDirectives_eq, Option.toList_eq_nil_iff, Option.map_eq_none_iff, List.find?_eq_none]
  simp

theorem passes_iff {directive : String} : passes directive = true ↔ normalized directive ∈ allowedDirectives := by
  rw [passes, List.contains_iff_mem]

theorem raisedAt_iff {earlier : List (String × Place)} {directive : String} :
    RaisedAt earlier directive ↔
      (∀ entry ∈ earlier, passes entry.1 = true) ∧ passes directive = false := by
  have before : checkDirectives (earlier.map (·.1)) = [] ↔ ∀ entry ∈ earlier, passes entry.1 = true := by
    rw [checkDirectives_nil, List.forall_mem_map]
  have through : checkDirectives (earlier.map (·.1) ++ [directive]) = [] ↔
      (∀ entry ∈ earlier, passes entry.1 = true) ∧ passes directive = true := by
    rw [checkDirectives_nil, List.forall_mem_append, List.forall_mem_map, List.forall_mem_singleton]
  unfold RaisedAt
  rw [Ne, before, through]
  constructor
  · rintro ⟨passed, stops⟩
    refine ⟨passed, ?_⟩
    rw [← Bool.not_eq_true]
    exact fun passes => stops ⟨passed, passes⟩
  · rintro ⟨passed, fails⟩
    refine ⟨passed, fun both => ?_⟩
    rw [fails] at both
    exact Bool.false_ne_true both.2

/-! ### A placeholder reads as itself -/

theorem trimOpening_of_head {c : Char} {rest : List Char} (differs : c ≠ '{') :
    trimOpening (c :: rest) = c :: rest := by
  unfold trimOpening
  split
  case h_1 same =>
    obtain ⟨rfl, -⟩ := List.cons.inj same
    exact absurd rfl differs
  case h_2 => rfl

theorem trimClosing_of_head {c : Char} {rest : List Char} (differs : c ≠ '}') :
    trimClosing (c :: rest) = c :: rest := by
  unfold trimClosing
  split
  case h_1 same =>
    obtain ⟨rfl, -⟩ := List.cons.inj same
    exact absurd rfl differs
  case h_2 => rfl

theorem isKeyChar_ne {c other : Char} (allowed : isKeyChar c = true) (refused : isKeyChar other = false) :
    c ≠ other := by
  rintro rfl
  exact Bool.false_ne_true (refused.symm.trans allowed)

theorem isKeyChar_not_whitespace {c : Char} (allowed : isKeyChar c = true) : Text.isWhitespace c = false := by
  have range : 33 ≤ c.toNat ∧ c.toNat ≤ 122 := by
    have lower : c.isLower = (c.val ≥ 'a'.val && c.val ≤ 'z'.val) := rfl
    simp only [isKeyChar, lower, Char.isDigit, Bool.or_eq_true, Bool.and_eq_true, decide_eq_true_eq,
      beq_iff_eq, UInt32.le_iff_toNat_le] at allowed
    rcases allowed with ((⟨above, below⟩ | ⟨above, below⟩) | rfl) | rfl
    · exact ⟨le_trans (by decide) above, le_trans below (by decide)⟩
    · exact ⟨le_trans (by decide) above, le_trans below (by decide)⟩
    · decide
    · decide
  simp only [Text.isWhitespace, Bool.or_eq_false_iff, Bool.and_eq_false_iff, decide_eq_false_iff_not, List.mem_cons,
    List.not_mem_nil, or_false]
  omega

theorem dropWhile_of_head {p : Char → Bool} {c : Char} {rest : List Char} (fails : p c = false) :
    (c :: rest).dropWhile p = c :: rest := by
  rw [List.dropWhile_cons, fails]
  rfl

/-- A list whose characters are all of keys, and its end. -/
theorem keyChars_reverse {c : Char} {rest : List Char} (all : ∀ d ∈ c :: rest, isKeyChar d = true) :
    ∃ last before, (c :: rest).reverse = last :: before ∧ isKeyChar last = true := by
  cases turned : (c :: rest).reverse with
  | nil => simp at turned
  | cons last before =>
    refine ⟨last, before, rfl, all last ?_⟩
    rw [← List.mem_reverse, turned]
    exact List.mem_cons_self

/-- The name of an attribution key. -/
def KeyName (name : String) : Prop := name ≠ "" ∧ ∀ c ∈ name.toList, isKeyChar c = true

instance (name : String) : Decidable (KeyName name) :=
  decidable_of_iff (name ≠ "" ∧ name.toList.all isKeyChar = true) (and_congr_right' List.all_eq_true)

theorem checkKey_nil {key ctx : String} (none : checkKey key ctx = []) : KeyName key := by
  unfold checkKey at none
  split at none
  case isTrue => cases none
  case isFalse filled =>
    refine ⟨fun blank => filled (by rw [blank]; rfl), ?_⟩
    rw [refuseIf_nil, Bool.not_eq_false', List.all_eq_true] at none
    exact none

/-- The name of a key is what is left of it between white space. -/
theorem trim_padded {name : String} (key : KeyName name) {lead trail : List Char}
    (blankLead : ∀ c ∈ lead, Text.isWhitespace c = true) (blankTrail : ∀ c ∈ trail, Text.isWhitespace c = true) :
    Text.trim (String.ofList (lead ++ name.toList ++ trail)) = name := by
  obtain ⟨filled, all⟩ := key
  have blankBack : ∀ c ∈ trail.reverse, Text.isWhitespace c = true := fun c inside =>
    blankTrail c (List.mem_reverse.mp inside)
  cases chars : name.toList with
  | nil => exact absurd (String.toList_eq_nil_iff.mp chars) filled
  | cons c rest =>
    rw [chars] at all
    obtain ⟨last, before, turned, lastKey⟩ := keyChars_reverse all
    have first := isKeyChar_not_whitespace (all c List.mem_cons_self)
    rw [Text.trim, String.toList_ofList, List.append_assoc, List.dropWhile_append_of_pos blankLead, List.cons_append,
      dropWhile_of_head first, ← List.cons_append, List.reverse_append, List.dropWhile_append_of_pos blankBack, turned,
      dropWhile_of_head (isKeyChar_not_whitespace lastKey), ← turned, List.reverse_reverse, ← chars,
      String.ofList_toList]

theorem trim_keyName {name : String} (key : KeyName name) : Text.trim name = name := by
  have padded := trim_padded key (List.forall_mem_nil _) (List.forall_mem_nil _)
  rwa [List.nil_append, List.append_nil, String.ofList_toList] at padded

theorem braced_toList (name : String) : (braced name).toList = '{' :: '{' :: (name.toList ++ ['}', '}']) := by
  simp [braced]

/-- A placeholder that names a key is already without white space. -/
theorem normalized_braced {name : String} (key : KeyName name) : normalized (braced name) = braced name := by
  have inner : (trimClosing (trimOpening (braced name).toList).reverse).reverse = name.toList := by
    obtain ⟨filled, all⟩ := key
    cases chars : name.toList with
    | nil => exact absurd (String.toList_eq_nil_iff.mp chars) filled
    | cons c rest =>
      rw [chars] at all
      obtain ⟨last, before, turned, lastKey⟩ := keyChars_reverse all
      have opens : trimOpening (braced name).toList = c :: rest ++ ['}', '}'] := by
        rw [braced_toList, chars, trimOpening, List.cons_append,
          trimOpening_of_head (isKeyChar_ne (all c List.mem_cons_self) (by decide))]
      have closes : trimClosing ('}' :: '}' :: last :: before) = last :: before := by
        rw [trimClosing, trimClosing_of_head (isKeyChar_ne lastKey (by decide))]
      rw [opens, List.reverse_append, turned]
      exact (congrArg List.reverse closes).trans (by rw [← turned, List.reverse_reverse])
  rw [normalized, inner, String.ofList_toList, trim_keyName key]

/-! ### What validation says of the placeholders -/

theorem checkPlaceholders_nil {text ctx : String} {allowed : List String}
    (none : checkPlaceholders text ctx allowed = []) : ∀ name ∈ names text, name ∈ allowed := by
  intro name listed
  unfold names at listed
  cases read : Template.placeholders text with
  | error e => simp [read, Except.toOption] at listed
  | ok found =>
    simp only [checkPlaceholders, read, List.flatMap_eq_nil_iff, refuseIf_nil, Bool.not_eq_false'] at none
    exact List.contains_iff_mem.mp (none name (by simpa [read, Except.toOption] using listed))

theorem validateTemplate_nil {template : RejectionTemplate} {reason : String} {allowed : List String}
    (none : validateTemplate template reason allowed = []) :
    ∀ text ∈ template.texts, ∀ name ∈ names text, name ∈ allowed := by
  simp only [validateTemplate, List.append_eq_nil_iff] at none
  obtain ⟨⟨-, body⟩, streamed⟩ := none
  intro text listed
  rcases List.mem_cons.mp listed with rfl | streaming
  · exact checkPlaceholders_nil body
  · cases given : template.streaming with
    | none => simp [given] at streaming
    | some event =>
      obtain rfl : text = event.data := by simpa [given] using streaming
      rw [given] at streamed
      exact checkPlaceholders_nil streamed

/-- What the node renders a template with covers what it lets the template name. -/
theorem validateRejectionOverrides_nil {overrides : RejectionOverrides} {ctx : String}
    (none : validateRejectionOverrides overrides ctx = []) {reason : Reason} {template : RejectionTemplate}
    (given : reason.template overrides = some template) :
    ∀ text ∈ template.texts, ∀ name ∈ names text, name ∈ reason.vars := by
  have covered : ∀ {allowed : List String} {label : String},
      validateTemplate? (reason.template overrides) label allowed = [] →
      allowed ⊆ reason.vars → ∀ text ∈ template.texts, ∀ name ∈ names text, name ∈ reason.vars := by
    intro allowed label valid covers text inside name listed
    rw [given] at valid
    exact covers (validateTemplate_nil valid text inside name listed)
  simp only [validateRejectionOverrides, List.append_eq_nil_iff] at none
  obtain ⟨⟨⟨⟨default, unknown⟩, model⟩, value⟩, cap⟩ := none
  cases reason with
  | defaultResponse => exact covered default (by decide)
  | unknownRoute => exact covered unknown (by decide)
  | modelNotAllowed => exact covered model (by decide)
  | valueNotAllowed => exact covered value (by decide)
  | capExceeded => exact covered cap (by decide)

theorem vars_keyName (reason : Reason) : ∀ name ∈ reason.vars, KeyName name := by
  cases reason <;> decide

theorem validateOperatorValue_nil {spec : OperatorValueSpec} {ctx : String}
    {checkTemplate : String → Except String Unit} (none : validateOperatorValue spec ctx checkTemplate = []) :
    ∀ key ∈ spec.keys, KeyName key := by
  intro key listed
  unfold OperatorValueSpec.keys at listed
  cases named : spec.asTemplate with
  | none => simp [named] at listed
  | some template =>
    rw [named] at listed
    cases read : Template.placeholders template with
    | error e => simp [read, Except.toOption] at listed
    | ok keys =>
      simp only [validateOperatorValue, named, read, List.append_eq_nil_iff, List.flatMap_eq_nil_iff] at none
      exact checkKey_nil (none.1 key (by simpa [read, Except.toOption] using listed))

theorem written_asTemplate {spec : OperatorValueSpec} {text : String} (given : written spec = some text) :
    spec.asTemplate = some text := by
  unfold written at given
  split at given
  · exact given
  · exact given
  · cases given

section

variable {Expr : Type} {lib : Compilers Expr} {cfg : Config}

theorem compileLayer_nil {name : String} {scope : Scope} (none : (compileLayer lib name scope).2 = [])
    {overrides : RejectionOverrides} (given : scope.rejections = some overrides) :
    validateRejectionOverrides overrides name = [] := by
  simp only [compileLayer, List.append_eq_nil_iff, given] at none
  exact none.1.1.2

/-- Every scope of a config without errors has been compiled without errors. -/
theorem configErrors_scopes (none : configErrors lib cfg = []) :
    ∀ scope ∈ scopes cfg, ∃ name, (compileLayer lib name scope).2 = [] := by
  simp only [configErrors, scopeErrors, List.append_eq_nil_iff] at none
  obtain ⟨⟨⟨-, ⟨fleet, projects⟩, apps⟩, routes⟩, -⟩ := none
  simp only [scopes, List.forall_mem_append]
  refine ⟨⟨⟨?_, ?_⟩, ?_⟩, ?_⟩
  · intro scope listed
    rw [Option.mem_toList] at listed
    rw [Option.mem_def.mp listed] at fleet
    exact ⟨"fleet", fleet⟩
  · intro scope listed
    rw [Maps.values_eq] at listed
    obtain ⟨⟨name, scope⟩, entry, rfl⟩ := List.mem_map.mp listed
    exact ⟨_, List.flatMap_eq_nil_iff.mp projects (name, scope) entry⟩
  · intro scope listed
    obtain ⟨route, known, rfl⟩ := List.mem_map.mp listed
    have own := (routeErrors_nil routes route known).1
    simp only [checkRoute, List.append_eq_nil_iff] at own
    exact ⟨route.label, own.2⟩
  · intro scope listed
    cases given : cfg.apps with
    | none => simp [given] at listed
    | some declared =>
      simp only [given, Option.map_some, Option.getD_some, Maps.values_eq] at listed
      obtain ⟨⟨value, scope⟩, entry, rfl⟩ := List.mem_map.mp listed
      simp only [given, List.append_eq_nil_iff, List.flatMap_eq_nil_iff] at apps
      have checked := apps.2 (value, scope) entry
      simp only [checkOverride, List.append_eq_nil_iff] at checked
      exact ⟨_, checked.1.1.2⟩

/-- The node substitutes the placeholders of every rejection template of a config without errors. -/
theorem rejectionTemplates_vars (none : configErrors lib cfg = []) {reason : Reason} {template : RejectionTemplate}
    (listed : template ∈ rejectionTemplates cfg reason) :
    ∀ text ∈ template.texts, ∀ name ∈ names text, name ∈ reason.vars := by
  obtain ⟨overrides, known, given⟩ := List.mem_filterMap.mp listed
  rcases List.mem_cons.mp known with rfl | below
  · have own : validateRejections cfg.rejections "rejections" = [] := by
      simp only [configErrors, List.append_eq_nil_iff] at none
      exact none.1.1.1.2
    exact validateRejectionOverrides_nil own given
  · obtain ⟨scope, inside, sets⟩ := List.mem_filterMap.mp below
    obtain ⟨name, clean⟩ := configErrors_scopes none scope inside
    exact validateRejectionOverrides_nil (compileLayer_nil clean sets) given

theorem operatorValues_keys (none : configErrors lib cfg = []) {spec : OperatorValueSpec}
    (listed : spec ∈ operatorValues cfg) : ∀ key ∈ spec.keys, KeyName key := by
  obtain ⟨provider, known, own⟩ := List.mem_flatMap.mp listed
  rw [Maps.values_eq] at known
  obtain ⟨⟨name, provider⟩, entry, rfl⟩ := List.mem_map.mp known
  simp only [configErrors, validateProviders, List.append_eq_nil_iff, List.flatMap_eq_nil_iff] at none
  have valid := none.1.1.1.1.1.1.1.1.2 (name, provider) entry
  simp only [validateProvider, List.append_eq_nil_iff] at valid
  rcases List.mem_append.mp own with injected | assumed
  · cases given : provider.inject with
    | none => simp [given] at injected
    | some inject =>
      have forced := valid.2
      simp only [given, validateInjection, List.append_eq_nil_iff, List.flatMap_eq_nil_iff] at forced
      simp only [given, Option.map_some, Option.getD_some, List.mem_append, List.mem_map] at injected
      rcases injected with ⟨header, inside, rfl⟩ | ⟨field, inside, rfl⟩
      · have checked := forced.1.2 header inside
        simp only [validateForcedHeader, List.append_eq_nil_iff] at checked
        exact validateOperatorValue_nil checked.2
      · have checked := forced.2 field inside
        simp only [validateForcedBodyField, List.append_eq_nil_iff] at checked
        exact validateOperatorValue_nil checked.2
  · cases given : provider.sts with
    | none => simp [given] at assumed
    | some sts =>
      have checked := valid.1.1.1.2
      simp only [given, validateSts, List.append_eq_nil_iff] at checked
      simp only [given, Option.map_some, Option.getD_some, List.mem_cons, List.not_mem_nil, or_false] at assumed
      rcases assumed with rfl | rfl
      · exact validateOperatorValue_nil checked.1.1.1.1.1.1.1.1.2
      · exact validateOperatorValue_nil checked.1.1.1.1.1.1.1.2

end

/-! ### Where the two readers agree -/

section

variable {Expr : Type} {lib : Compilers Expr} {flatYaml : String} {reading : Reading flatYaml}

/-- A directive that stands in a template of an accepted config is a placeholder that the node has a value for, under
    the name of a key. -/
theorem standing (none : configErrors lib reading.config = []) {entry : String × Place}
    (listed : entry ∈ reading.placed) (inside : entry.2 ≠ .elsewhere) :
    ∃ name ∈ entry.2.vars, KeyName name ∧ entry.1 = braced name := by
  obtain ⟨directive, place⟩ := entry
  have stands := reading.stands (directive, place) listed
  cases place with
  | rejection reason =>
    obtain ⟨template, known, text, part, name, found, rfl⟩ := stands
    have var := rejectionTemplates_vars none known text part name found
    exact ⟨name, var, vars_keyName reason name var, rfl⟩
  | operator spec =>
    obtain ⟨known, text, given, name, found, rfl⟩ := stands
    have key : name ∈ spec.keys := by
      rw [OperatorValueSpec.keys, written_asTemplate given]
      exact found
    exact ⟨name, key, operatorValues_keys none known name key, rfl⟩
  | elsewhere => exact absurd rfl inside

theorem substitutes_iff (none : configErrors lib reading.config = []) {entry : String × Place}
    (listed : entry ∈ reading.placed) : entry.2.Substitutes entry.1 ↔ entry.2 ≠ .elsewhere := by
  constructor
  · rintro ⟨name, var, -⟩ outside
    rw [outside] at var
    cases var
  · intro inside
    obtain ⟨name, var, -, same⟩ := standing none listed inside
    exact ⟨name, var, same⟩

/-- In a template, the gate lets nothing through but the key and the route as they are written. -/
theorem passes_standing (none : configErrors lib reading.config = []) {entry : String × Place}
    (listed : entry ∈ reading.placed) (inside : entry.2 ≠ .elsewhere) :
    passes entry.1 = true ↔ entry.1 ∈ allowedDirectives := by
  obtain ⟨name, -, key, same⟩ := standing none listed inside
  rw [passes_iff, same, normalized_braced key]

theorem mem_placed {earlier later : List (String × Place)} {entry : String × Place}
    (split : reading.placed = earlier ++ entry :: later) : entry ∈ reading.placed := by
  rw [split]
  exact List.mem_append_right _ List.mem_cons_self

theorem noForbiddenConstruct_nil :
    noForbiddenConstruct flatYaml = [] ↔ ∀ entry ∈ reading.placed, passes entry.1 = true := by
  rw [noForbiddenConstruct, ← reading.covers, checkDirectives_nil, List.forall_mem_map]

/-- The gate lets every directive through, or there is a first one at which it raises its failure. -/
theorem raised_or_passes (reading : Reading flatYaml) : (∀ entry ∈ reading.placed, passes entry.1 = true) ∨
    ∃ earlier directive place later, reading.placed = earlier ++ (directive, place) :: later ∧
      RaisedAt earlier directive := by
  cases found : reading.placed.find? fun entry => !passes entry.1 with
  | none =>
    left
    simpa using found
  | some entry =>
    obtain ⟨fails, earlier, later, split, before⟩ := List.find?_eq_some_iff_append.mp found
    exact .inr ⟨earlier, entry.1, entry.2, later, split,
      raisedAt_iff.mpr ⟨fun other inside => by simpa using before other inside, by simpa using fails⟩⟩

/-- The first directive that the gate does not let through is one. -/
theorem raisedAt_unique {earlier earlier' later later' : List (String × Place)} {entry entry' : String × Place}
    (split : reading.placed = earlier ++ entry :: later) (split' : reading.placed = earlier' ++ entry' :: later')
    (raised : RaisedAt earlier entry.1) (raised' : RaisedAt earlier' entry'.1) : entry = entry' := by
  have first : ∀ {before after : List (String × Place)} {e : String × Place}, reading.placed = before ++ e :: after →
      RaisedAt before e.1 → reading.placed.find? (fun entry => !passes entry.1) = some e := by
    intro before after e split raised
    obtain ⟨passed, fails⟩ := raisedAt_iff.mp raised
    exact List.find?_eq_some_iff_append.mpr
      ⟨by simpa using fails, before, after, split, fun other inside => by simpa using passed other inside⟩
  exact Option.some.inj ((first split raised).symm.trans (first split' raised'))

theorem fromYaml_ok {read : (flatYaml : String) → Except String (Reading flatYaml)} {finalized : Finalized Expr}
    (accepted : fromYaml lib read flatYaml = .ok (reading, finalized)) : configErrors lib reading.config = [] := by
  unfold fromYaml at accepted
  cases parsed : read flatYaml with
  | error e =>
    rw [parsed] at accepted
    cases accepted
  | ok found =>
    rw [parsed] at accepted
    cases valid : finalize lib found.config with
    | error errors =>
      simp only [valid, Except.map] at accepted
      cases accepted
    | ok compiled =>
      simp only [valid, Except.map, Except.ok.injEq, Prod.mk.injEq] at accepted
      rw [← accepted.1]
      exact (finalize_ok valid).1

end

/-- For a text that the node accepts, the gate raises no failure for what the node substitutes and blocks the text
    exactly when it holds anything else, if and only if every directive is the key or the route in a template, or the
    first one that is neither stands outside the templates. -/
theorem gate_agrees_iff {Expr : Type} (lib : Compilers Expr)
    (read : (flatYaml : String) → Except String (Reading flatYaml)) (flatYaml : String) (reading : Reading flatYaml)
    (finalized : Finalized Expr) (accepted : fromYaml lib read flatYaml = .ok (reading, finalized)) :
    GateAgrees reading ↔ NothingElseUsed reading := by
  have none := fromYaml_ok accepted
  constructor
  · intro agrees
    rcases raised_or_passes reading with passed | ⟨earlier, directive, place, later, split, raised⟩
    · left
      intro entry listed
      have inside : entry.2 ≠ .elsewhere := by
        rw [← substitutes_iff none listed]
        by_contra outside
        exact agrees.blocks.mpr ⟨entry, listed, outside⟩ (noForbiddenConstruct_nil.mpr passed)
      exact ⟨(passes_standing none listed inside).mp (passed entry listed), inside⟩
    · right
      have outside : ¬ place ≠ .elsewhere := by
        rw [← substitutes_iff none (mem_placed split)]
        exact fun substitutes => agrees.spares earlier directive place later split substitutes raised
      obtain rfl := not_not.mp outside
      obtain ⟨passed, fails⟩ := raisedAt_iff.mp raised
      refine ⟨earlier, directive, later, split, fun entry before => passes_iff.mp (passed entry before), ?_⟩
      rw [← passes_iff, fails]
      exact Bool.false_ne_true
  · rintro (allowed | ⟨earlier, directive, later, split, before, refused⟩)
    · have passed : ∀ entry ∈ reading.placed, passes entry.1 = true := fun entry listed =>
        (passes_standing none listed (allowed entry listed).2).mpr (allowed entry listed).1
      constructor
      · intro earlier directive place later split _ raised
        have through := passed _ (mem_placed split)
        rw [(raisedAt_iff.mp raised).2] at through
        cases through
      · constructor
        · exact fun blocked => absurd (noForbiddenConstruct_nil.mpr passed) blocked
        · rintro ⟨entry, listed, outside⟩
          exact absurd ((substitutes_iff none listed).mpr (allowed entry listed).2) outside
    · have raised : RaisedAt earlier directive := by
        refine raisedAt_iff.mpr ⟨fun entry inside => passes_iff.mpr (before entry inside), ?_⟩
        rw [← Bool.not_eq_true, passes_iff]
        exact refused
      have outside : ¬ Place.elsewhere.Substitutes directive := by
        rintro ⟨name, var, -⟩
        cases var
      constructor
      · intro earlier' directive' place later' split' substitutes raised'
        obtain ⟨rfl, rfl⟩ := Prod.mk.inj (raisedAt_unique split split' raised raised')
        exact outside substitutes
      · constructor
        · exact fun _ => ⟨_, mem_placed split, outside⟩
        · intro _ clean
          have through := noForbiddenConstruct_nil.mp clean _ (mem_placed split)
          rw [(raisedAt_iff.mp raised).2] at through
          cases through

def teamRoute : Route := ⟨"/openai", "openai-main", none, none, ⟨⟨[], ∅, ∅, ∅, ∅, ∅, none⟩, [], none⟩⟩

/-- The text of a config for one team header, with these rejection templates below the two that are required. -/
def teamYaml (templates : String) : String :=
  "providers:\n  openai-main:\n    kind: openai\n    upstream: \x7b host: 127.0.0.1, port: 6190 \x7d\n" ++
    "fleet:\n  attribution:\n    required_keys: [team]\n    headers: \x7b team: x-attr-team \x7d\n" ++
    "routes:\n  - prefix: /openai\n    provider: openai-main\n" ++
    "rejections:\n  default_response:\n    status: 428\n    content_type: text/plain\n" ++
    "    body: missing \x7b\x7bkey\x7d\x7d on \x7b\x7broute\x7d\x7d\n" ++
    "  unknown_route:\n    status: 404\n    content_type: text/plain\n    body: no \x7b\x7broute\x7d\x7d\n" ++ templates

def missingTemplate : RejectionTemplate :=
  ⟨428, "text/plain", "missing \x7b\x7bkey\x7d\x7d on \x7b\x7broute\x7d\x7d", none⟩

def unknownTemplate : RejectionTemplate := ⟨404, "text/plain", "no \x7b\x7broute\x7d\x7d", none⟩

def teamConfig (capExceeded : Option RejectionTemplate) : Config where
  providers := (∅ : Named Provider).insert "openai-main" ⟨.openai, ⟨"127.0.0.1", 6190⟩, none, none, none, none⟩
  fleet := some ⟨⟨["team"], (∅ : Named String).insert "team" "x-attr-team", ∅, ∅, ∅, ∅, none⟩, [], none⟩
  projects := ∅
  routes := [teamRoute]
  apps := none
  rejections := ⟨missingTemplate, unknownTemplate, none, none, capExceeded⟩
  jwt := none
  otlp := none
  webhook := none
  wasm := ⟨[], false⟩

/-- The placeholders of the two required templates, where they stand. -/
def requiredPlaced : List (String × Place) :=
  [("\x7b\x7bkey\x7d\x7d", .rejection .defaultResponse), ("\x7b\x7broute\x7d\x7d", .rejection .defaultResponse),
    ("\x7b\x7broute\x7d\x7d", .rejection .unknownRoute)]

theorem teamYaml_directives (templates : String) (known : List String)
    (rest : scanDirectives none templates.toList = known) :
    directives (teamYaml templates) = requiredPlaced.map (·.1) ++ known := by
  unfold directives teamYaml
  rw [String.toList_append, String.toList_append, String.toList_append, String.toList_append, String.toList_append,
    String.toList_append]
  repeat rw [String.toList_ofList]
  rw [← rest]
  rfl

theorem requiredPlaced_stands (capExceeded : Option RejectionTemplate) :
    ∀ entry ∈ requiredPlaced, StandsIn (teamConfig capExceeded) entry.1 entry.2 := by
  simp only [requiredPlaced, List.forall_mem_cons, List.not_mem_nil, false_implies, implies_true, and_true]
  have stands : ∀ reason template name, some template = reason.template (teamConfig capExceeded).rejections.overrides →
      name ∈ names template.body → StandsIn (teamConfig capExceeded) (braced name) (.rejection reason) := by
    intro reason template name given listed
    exact ⟨template, List.mem_filterMap.mpr ⟨_, List.mem_cons_self, given.symm⟩, template.body, List.mem_cons_self,
      name, listed, rfl⟩
  exact ⟨stands .defaultResponse missingTemplate "key" rfl (by decide +kernel),
    stands .defaultResponse missingTemplate "route" rfl (by decide),
    stands .unknownRoute unknownTemplate "route" rfl (by decide)⟩

def teamReading : Reading (teamYaml "") where
  config := teamConfig none
  placed := requiredPlaced
  covers := (teamYaml_directives "" [] rfl).symm
  stands := requiredPlaced_stands none

/-- The node accepts the config, and the gate agrees with it. -/
theorem required_templates_agree : GateAgrees teamReading := by
  let read (flatYaml : String) : Except String (Reading flatYaml) :=
    if same : flatYaml = teamYaml "" then .ok (same ▸ teamReading) else .error "unreadable"
  have parsed : read (teamYaml "") = .ok teamReading := dif_pos rfl
  have valid : finalize noExpressions (teamConfig none) =
      .ok ⟨teamConfig none, [(teamRoute, compileRoute noExpressions (teamConfig none) teamRoute)]⟩ :=
    if_pos (by decide +kernel)
  have accepted : fromYaml noExpressions read (teamYaml "") =
      .ok (teamReading, ⟨teamConfig none, [(teamRoute, compileRoute noExpressions (teamConfig none) teamRoute)]⟩) := by
    rw [fromYaml, parsed]
    exact congrArg (Except.map _) valid
  refine (gate_agrees_iff noExpressions read _ teamReading _ accepted).mpr (.inl ?_)
  simp [teamReading, requiredPlaced, allowedDirectives]

def cappedTemplate : RejectionTemplate := ⟨429, "text/plain", "over \x7b\x7bcap\x7d\x7d", none⟩

def cappedYaml : String :=
  teamYaml ("  cap_exceeded:\n    status: 429\n    content_type: text/plain\n    body: over \x7b\x7bcap\x7d\x7d\n")

def cappedReading : Reading cappedYaml where
  config := teamConfig (some cappedTemplate)
  placed := requiredPlaced ++ [("\x7b\x7bcap\x7d\x7d", .rejection .capExceeded)]
  covers := by
    rw [cappedYaml, teamYaml_directives _ ["\x7b\x7bcap\x7d\x7d"] (by rw [String.toList_ofList]; rfl), List.map_append]
    rfl
  stands := by
    rw [List.forall_mem_append, List.forall_mem_singleton]
    refine ⟨requiredPlaced_stands _, cappedTemplate, ?_, cappedTemplate.body, List.mem_cons_self, "cap", ?_, rfl⟩
    · exact List.mem_filterMap.mpr ⟨_, List.mem_cons_self, rfl⟩
    · decide

/-- The node accepts a template that names the cap and puts the cap into it, and the gate blocks the text for it. -/
theorem cap_placeholder_blocked :
    ¬ ∀ (read : (flatYaml : String) → Except String (Reading flatYaml)) (flatYaml : String)
      (reading : Reading flatYaml) (finalized : Finalized Empty),
      fromYaml noExpressions read flatYaml = .ok (reading, finalized) → GateAgrees reading := by
  intro claimed
  let read (flatYaml : String) : Except String (Reading flatYaml) :=
    if same : flatYaml = cappedYaml then .ok (same ▸ cappedReading) else .error "unreadable"
  have parsed : read cappedYaml = .ok cappedReading := dif_pos rfl
  have valid : finalize noExpressions (teamConfig (some cappedTemplate)) =
      .ok ⟨teamConfig (some cappedTemplate),
        [(teamRoute, compileRoute noExpressions (teamConfig (some cappedTemplate)) teamRoute)]⟩ :=
    if_pos (by decide +kernel)
  have accepted : fromYaml noExpressions read cappedYaml = .ok (cappedReading,
      ⟨teamConfig (some cappedTemplate),
        [(teamRoute, compileRoute noExpressions (teamConfig (some cappedTemplate)) teamRoute)]⟩) := by
    rw [fromYaml, parsed]
    exact congrArg (Except.map _) valid
  have agrees := claimed read cappedYaml cappedReading _ accepted
  refine agrees.spares requiredPlaced "\x7b\x7bcap\x7d\x7d" (.rejection .capExceeded) [] rfl ?_ ?_
  · exact ⟨"cap", by decide, by decide⟩
  · exact ⟨by decide +kernel, by decide +kernel⟩

end SmallGateway.Config
