import SmallGateway.Lib.Fallible
import SmallGateway.Text

/-!
Values the operator decides: `\x7b\x7bkey\x7d\x7d` templates (`gateway-core/src/template.rs`), their
specification in the config (`gateway-core/src/config.rs`), and their rendering against the adjudicated tags of
a request (`gatewayd/src/proxy_support.rs`).
-/

namespace SmallGateway

/-- Where the value of an attribution tag comes from. -/
inductive Origin where
  | assigned
  | proven
  | derived
  | caller
  deriving DecidableEq, Repr

/-- One resolved attribution tag. -/
structure Tag where
  key : String
  value : String
  origin : Origin
  deriving DecidableEq, Repr

namespace Template

/-- Scans a template from the left. Inside a placeholder the state is the name read so far, in reverse, and
    the text from the opening braces on. -/
def scan : Option (List Char × List Char) → List Char → Except String (List String)
  | none, [] => .ok []
  | none, '{' :: '{' :: rest => scan (some ([], '{' :: '{' :: rest)) rest
  | none, _ :: rest => scan none rest
  | some (_, opened), [] =>
    .error ("unterminated placeholder at " ++ Text.debugStr (String.ofList (opened.take 20)))
  | some (name, _), '}' :: '}' :: rest =>
    (scan none rest).map fun names => String.ofList name.reverse :: names
  | some (name, opened), c :: rest => scan (some (c :: name, opened)) rest

/-- Every placeholder of a template, in order of appearance. -/
def placeholders (template : String) : Except String (List String) := scan none template.toList

/-- Substitutes the variables one after the other. -/
def render (template : String) (vars : List (String × String)) : String :=
  vars.foldl (fun text (name, value) => Text.replaceAll text ("\x7b\x7b" ++ name ++ "\x7d\x7d") value) template

end Template

/-- A value the operator decides: a bare string, or a map with a value or an attribution key. -/
inductive OperatorValueSpec where
  | bare (text : String)
  | spec (value fromAttribution : Option String)
  deriving DecidableEq, Repr

/-- The template a specification resolves through, none when it sets neither or both of its fields. -/
def OperatorValueSpec.asTemplate : OperatorValueSpec → Option String
  | .bare text => some text
  | .spec (some value) none => some value
  | .spec none (some key) => some ("\x7b\x7b" ++ key ++ "\x7d\x7d")
  | .spec _ _ => none

/-- The value of one placeholder. A value the caller asserted is refused, except for the one key whose values
    an allow-list closes. The error names the key and says why. -/
def templateVar (tags : List Tag) (allowGatedKey : Option String) (key : String) :
    Except (String × String) (String × String) :=
  match tags.find? fun tag => tag.key == key with
  | none => .error (key, "attribution key " ++ Text.debugStr key ++ " did not resolve")
  | some tag =>
    if tag.origin = .caller ∧ allowGatedKey ≠ some key then
      .error (key, "attribution key " ++ Text.debugStr key ++ " is caller-origin and not allow-gated")
    else .ok (key, tag.value)

/-- A template rendered against the tags of a request, or what could not be resolved and why. -/
def renderOperatorTemplate (spec : OperatorValueSpec) (what : String) (tags : List Tag)
    (allowGatedKey : Option String) : Except (String × String) String :=
  match spec.asTemplate with
  | none => .error (what, "mis-specified operator value")
  | some template =>
    match Template.placeholders template with
    | .error e => .error (what, e)
    | .ok keys =>
      match keys.mapM (templateVar tags allowGatedKey) with
      | .error e => .error e
      | .ok vars =>
        let rendered := Template.render template vars
        if (Text.after? ['{', '{'] rendered.toList).isSome then
          .error (what, "template left unresolved placeholders")
        else .ok rendered

/-- The keys that a value names, none when it is misspecified or not well-formed. -/
def OperatorValueSpec.keys (spec : OperatorValueSpec) : List String :=
  match spec.asTemplate with
  | none => []
  | some template => (Template.placeholders template).toOption.getD []

/-- The tag of an attribution key. -/
def tagFor (tags : List Tag) (key : String) : Option Tag := tags.find? fun tag => tag.key == key

theorem tagFor_key {tags : List Tag} {key : String} {tag : Tag} (found : tagFor tags key = some tag) :
    tag.key = key := by
  simpa using List.find?_some found

/-- A tag that a template may take its value from. -/
def Tag.Usable (allowGatedKey : Option String) (tag : Tag) : Prop :=
  tag.origin ≠ .caller ∨ allowGatedKey = some tag.key

/-- The text is the template of the specification with values of usable tags in it. -/
def RenderedFrom (spec : OperatorValueSpec) (tags : List Tag) (usable : Tag → Prop) (text : String) : Prop :=
  ∃ template vars, spec.asTemplate = some template ∧ text = Template.render template vars ∧
    ∀ var ∈ vars, ∃ tag, tagFor tags tag.key = some tag ∧ var = (tag.key, tag.value) ∧ tag.key ∈ spec.keys ∧ usable tag

theorem RenderedFrom.mono {spec : OperatorValueSpec} {tags : List Tag} {usable usable' : Tag → Prop} {text : String}
    (rendered : RenderedFrom spec tags usable text)
    (weaker : ∀ tag, tagFor tags tag.key = some tag → tag.key ∈ spec.keys → usable tag → usable' tag) :
    RenderedFrom spec tags usable' text := by
  obtain ⟨template, vars, named, rendered, sources⟩ := rendered
  refine ⟨template, vars, named, rendered, fun var listed => ?_⟩
  obtain ⟨tag, found, same, key, allowed⟩ := sources var listed
  exact ⟨tag, found, same, key, weaker tag found key allowed⟩

section

variable {tags other : List Tag} {allowGatedKey : Option String} {spec : OperatorValueSpec} {what : String}

/-- A placeholder gets the value of the tag of its key. -/
theorem templateVar_ok {key : String} {var : String × String} (found : templateVar tags allowGatedKey key = .ok var) :
    ∃ tag, tagFor tags key = some tag ∧ var = (tag.key, tag.value) ∧ tag.Usable allowGatedKey := by
  unfold templateVar at found
  cases looked : tagFor tags key with
  | none =>
    rw [← tagFor, looked] at found
    cases found
  | some tag =>
    have same := tagFor_key looked
    rw [← tagFor, looked] at found
    dsimp only at found
    by_cases refuses : tag.origin = .caller ∧ allowGatedKey ≠ some key
    · rw [if_pos refuses] at found
      cases found
    · rw [if_neg refuses, Except.ok.injEq] at found
      refine ⟨tag, rfl, by rw [← found, same], ?_⟩
      unfold Tag.Usable
      rw [same]
      by_contra neither
      obtain ⟨caller, ungated⟩ := not_or.mp neither
      exact refuses ⟨not_not.mp caller, ungated⟩

/-- What a text that is not refused is made of. -/
theorem renderOperatorTemplate_made {text : String}
    (rendered : renderOperatorTemplate spec what tags allowGatedKey = .ok text) :
    ∃ template keys vars, spec.asTemplate = some template ∧ Template.placeholders template = .ok keys ∧
      keys.mapM (templateVar tags allowGatedKey) = .ok vars ∧ spec.keys = keys ∧ text = Template.render template vars ∧
      ¬ (Text.after? ['{', '{'] text.toList).isSome := by
  unfold renderOperatorTemplate at rendered
  cases named : spec.asTemplate with
  | none =>
    rw [named] at rendered
    cases rendered
  | some template =>
    cases parsed : Template.placeholders template with
    | error e =>
      simp only [named, parsed] at rendered
      cases rendered
    | ok keys =>
      have own : spec.keys = keys := by
        rw [OperatorValueSpec.keys, named]
        simp only [parsed]
        rfl
      cases mapped : keys.mapM (templateVar tags allowGatedKey) with
      | error e =>
        simp only [named, parsed, mapped] at rendered
        cases rendered
      | ok vars =>
        simp only [named, parsed, mapped] at rendered
        split at rendered
        · cases rendered
        · rename_i unbraced
          obtain rfl := Except.ok.inj rendered
          exact ⟨template, keys, vars, rfl, parsed, mapped, own, rfl, unbraced⟩

theorem renderOperatorTemplate_ok {text : String}
    (rendered : renderOperatorTemplate spec what tags allowGatedKey = .ok text) :
    RenderedFrom spec tags (Tag.Usable allowGatedKey) text := by
  obtain ⟨template, keys, vars, named, -, mapped, rfl, rfl, -⟩ := renderOperatorTemplate_made rendered
  refine ⟨template, vars, named, rfl, fun var listed => ?_⟩
  obtain ⟨key, inside, one⟩ := Fallible.exists_of_mapM_ok mapped var listed
  obtain ⟨tag, found, same, usable⟩ := templateVar_ok one
  obtain rfl := tagFor_key found
  exact ⟨tag, found, same, inside, usable⟩

/-- Only the tags of its keys matter to a value. -/
theorem renderOperatorTemplate_congr
    (agree : ∀ key ∈ spec.keys, tagFor tags key = tagFor other key) :
    renderOperatorTemplate spec what tags allowGatedKey = renderOperatorTemplate spec what other allowGatedKey := by
  unfold renderOperatorTemplate
  cases named : spec.asTemplate with
  | none => rfl
  | some template =>
    cases parsed : Template.placeholders template with
    | error e => simp only [parsed]
    | ok keys =>
      have same : keys.mapM (templateVar tags allowGatedKey) = keys.mapM (templateVar other allowGatedKey) := by
        refine Fallible.mapM_congr fun key found => ?_
        have same := agree key (by simpa [OperatorValueSpec.keys, named, parsed, Except.toOption] using found)
        unfold tagFor at same
        rw [templateVar, templateVar, same]
      simp only [parsed, same]

end

end SmallGateway
