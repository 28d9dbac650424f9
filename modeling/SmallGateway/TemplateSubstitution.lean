import SmallGateway.ConstructGate

/-!
How an operator template takes the values of its keys (`render` in `gateway-core/src/template.rs`,
`render_operator_template` in `gatewayd/src/proxy_support.rs`). The values are put in one after the other, each by a
replacement in the whole text, and a text with an opening pair of braces is refused. A text that is not refused is the one
that a single pass over the template makes exactly when that one has no opening pair of braces
(`render_simultaneous_iff`): a value that brings such a pair, or that makes one with what stands beside it, is read as a
placeholder.
-/

namespace SmallGateway

/-! ### The pieces of a template -/

namespace Template

/-- A template is made of characters that stand for themselves and of placeholders. -/
inductive Piece where
  | char (c : Char)
  | placeholder (key : String)
  deriving DecidableEq, Repr

/-- The pieces of a template, from the left. Inside a placeholder the state is the name read so far, in reverse. -/
def pieces : Option (List Char) → List Char → List Piece
  | none, [] => []
  | none, '{' :: '{' :: rest => pieces (some []) rest
  | none, c :: rest => .char c :: pieces none rest
  | some _, [] => []
  | some name, '}' :: '}' :: rest => .placeholder (String.ofList name.reverse) :: pieces none rest
  | some name, c :: rest => pieces (some (c :: name)) rest

/-- The text of the pieces, each placeholder with the text of its key. -/
def fill (text : String → List Char) (pieces : List Piece) : List Char :=
  pieces.flatMap fun
    | .char c => [c]
    | .placeholder key => text key

@[simp] theorem fill_nil (text : String → List Char) : fill text [] = [] := rfl

@[simp] theorem fill_char (text : String → List Char) (c : Char) (rest : List Piece) :
    fill text (.char c :: rest) = c :: fill text rest := rfl

@[simp] theorem fill_placeholder (text : String → List Char) (key : String) (rest : List Piece) :
    fill text (.placeholder key :: rest) = text key ++ fill text rest := rfl

/-- Every placeholder replaced once, in one pass over the template. -/
def simultaneous (template : String) (valueOf : String → String) : String :=
  String.ofList (fill (fun key => (valueOf key).toList) (pieces none template.toList))

/-- What stands before the first closing pair of braces, and what stands after it. -/
def splitClose : List Char → Option (List Char × List Char)
  | [] => none
  | '}' :: '}' :: rest => some ([], rest)
  | c :: rest => (splitClose rest).map fun (key, after) => (c :: key, after)

/-- The name ends where the braces close behind it, whatever follows. -/
def Closed (key : List Char) : Prop := ∀ rest, splitClose (key ++ '}' :: '}' :: rest) = some (key, rest)

theorem splitClose_parts {chars key rest : List Char} (found : splitClose chars = some (key, rest)) :
    chars = key ++ '}' :: '}' :: rest ∧ Closed key := by
  induction chars using splitClose.induct generalizing key with
  | case1 => cases found
  | case2 after =>
    simp only [splitClose, Option.some.injEq, Prod.mk.injEq] at found
    obtain ⟨rfl, rfl⟩ := found
    exact ⟨rfl, fun rest => by simp [splitClose]⟩
  | case3 c more other ih =>
    rw [splitClose] at found
    · obtain ⟨⟨inner, after⟩, split, same⟩ := Option.map_eq_some_iff.mp found
      cases same
      obtain ⟨rfl, closed⟩ := ih split
      refine ⟨rfl, fun rest => ?_⟩
      rw [List.cons_append, splitClose, closed]
      · rfl
      · -- The name does not end here, since the text that was split does not.
        intro last brace next
        cases inner with
        | nil => exact other _ brace rfl
        | cons d inner => exact other _ brace (by rw [List.cons_append, (List.cons.inj next).1])
    · exact other

/-- Two names that close are one where the text behind them agrees. -/
theorem Closed.eq {key other rest : List Char} (closed : Closed key) (otherClosed : Closed other)
    (here : key ++ ['}', '}'] <+: other ++ '}' :: '}' :: rest) : key = other := by
  obtain ⟨after, same⟩ := here
  have read := closed after
  rw [List.append_assoc] at same
  have text : key ++ '}' :: '}' :: after = other ++ '}' :: '}' :: rest := same
  rw [text, otherClosed] at read
  exact (congrArg Prod.fst (Option.some.inj read)).symm

/-! ### A scan reads the pieces -/

theorem scan_open (name opened chars : List Char) :
    scan (some (name, opened)) chars =
      match splitClose chars with
      | none => scan (some (name, opened)) []
      | some (key, rest) => (scan none rest).map fun names => String.ofList (name.reverse ++ key) :: names := by
  induction chars using splitClose.induct generalizing name with
  | case1 => rfl
  | case2 rest => simp [scan, splitClose]
  | case3 c rest other ih =>
    have step : scan (some (name, opened)) (c :: rest) = scan (some (c :: name, opened)) rest := by
      rw [scan]
      exact other
    rw [step, ih, splitClose]
    · cases splitClose rest with
      | none => rfl
      | some parts => simp
    · exact other

theorem pieces_open (name chars : List Char) :
    pieces (some name) chars =
      match splitClose chars with
      | none => []
      | some (key, rest) => .placeholder (String.ofList (name.reverse ++ key)) :: pieces none rest := by
  induction chars using splitClose.induct generalizing name with
  | case1 => rfl
  | case2 rest => simp [pieces, splitClose]
  | case3 c rest other ih =>
    rw [splitClose, pieces, ih]
    · cases splitClose rest with
      | none => rfl
      | some parts => simp
    · exact other
    · exact other

/-- The key of a placeholder. -/
def Piece.key? : Piece → Option String
  | .char _ => none
  | .placeholder key => some key

/-- A template that is read is the text of its pieces, with the keys in their order. -/
theorem scan_pieces {chars : List Char} {names : List String} (read : scan none chars = .ok names) :
    fill (fun key => (Config.braced key).toList) (pieces none chars) = chars ∧
      (pieces none chars).filterMap Piece.key? = names ∧ ∀ key ∈ names, Closed key.toList := by
  induction length : chars.length using Nat.strong_induction_on generalizing chars names with
  | _ n ih =>
    subst length
    by_cases opens : ∃ rest, chars = '{' :: '{' :: rest
    · obtain ⟨rest, rfl⟩ := opens
      rw [scan, scan_open] at read
      cases split : splitClose rest with
      | none =>
        rw [split] at read
        cases read
      | some parts =>
        obtain ⟨key, after⟩ := parts
        rw [split] at read
        obtain ⟨rfl, closed⟩ := splitClose_parts split
        obtain ⟨others, later, rfl⟩ : ∃ others, scan none after = .ok others ∧ String.ofList key :: others = names := by
          cases later : scan none after with
          | error e => simp [later, Except.map] at read
          | ok others => exact ⟨others, rfl, by simpa [later, Except.map] using read⟩
        have shorter : after.length < ('{' :: '{' :: (key ++ '}' :: '}' :: after)).length := by
          simp only [List.length_cons, List.length_append]
          omega
        obtain ⟨written, keys, allClosed⟩ := ih after.length shorter later rfl
        have parsed : pieces none ('{' :: '{' :: (key ++ '}' :: '}' :: after)) =
            .placeholder (String.ofList key) :: pieces none after := by
          rw [pieces, pieces_open, split]
          rfl
        have one : (Config.braced (String.ofList key)).toList = '{' :: '{' :: (key ++ ['}', '}']) := by
          simp [Config.braced]
        refine ⟨?_, ?_, List.forall_mem_cons.mpr ⟨?_, allClosed⟩⟩
        · rw [parsed, fill_placeholder, written, one]
          simp
        · rw [parsed, List.filterMap_cons, Piece.key?, keys]
        · rwa [String.toList_ofList]
    · cases chars with
      | nil =>
        obtain rfl := Except.ok.inj read
        exact ⟨rfl, rfl, List.forall_mem_nil _⟩
      | cons c rest =>
        have other : ∀ more, c = '{' → rest = '{' :: more → False := fun more brace next => opens ⟨more, by rw [brace, next]⟩
        have step : scan none (c :: rest) = scan none rest := by
          rw [scan]
          exact other
        have parsed : pieces none (c :: rest) = .char c :: pieces none rest := by
          rw [pieces]
          exact other
        rw [step] at read
        obtain ⟨written, keys, allClosed⟩ := ih rest.length (Nat.lt_succ_self _) read rfl
        refine ⟨?_, ?_, allClosed⟩
        · rw [parsed, fill_char, written]
        · rw [parsed, List.filterMap_cons, Piece.key?, keys]

/-! ### One replacement -/

section

variable {valueOf : String → String} {done : List String} {key : String} {rest : List Piece}

/-- The text of a placeholder after the values of some keys have been put in. -/
def textAfter (valueOf : String → String) (done : List String) (key : String) : List Char :=
  if key ∈ done then (valueOf key).toList else (Config.braced key).toList

/-- No opening pair of braces stands in the text. -/
def Unbraced (text : List Char) : Prop := ¬ ['{', '{'] <:+: text

theorem Unbraced.right {text more : List Char} (unbraced : Unbraced (text ++ more)) : Unbraced more :=
  fun inside => unbraced (List.infix_append_of_infix_right inside)

theorem Unbraced.tail {c : Char} {text : List Char} (unbraced : Unbraced (c :: text)) : Unbraced text :=
  fun inside => unbraced (List.infix_cons inside)

theorem not_unbraced (more : List Char) : ¬ Unbraced ('{' :: '{' :: more) :=
  fun unbraced => unbraced ⟨[], more, rfl⟩

/-- The text of what is left starts as in the end, or with a placeholder that is left. -/
theorem head_textAfter {more : List Char} (starts : fill (textAfter valueOf done) rest = '{' :: more) :
    (∃ others, fill (fun key => (valueOf key).toList) rest = '{' :: others) ∨ ∃ others, more = '{' :: others := by
  induction rest with
  | nil => cases starts
  | cons piece rest ih =>
    cases piece with
    | char c =>
      obtain ⟨rfl, -⟩ := List.cons.inj starts
      exact .inl ⟨_, rfl⟩
    | placeholder key =>
      rw [fill_placeholder, textAfter] at starts
      split at starts
      · cases value : (valueOf key).toList with
        | nil =>
          rw [value] at starts
          rw [fill_placeholder, value]
          exact ih starts
        | cons c value' =>
          rw [value] at starts
          obtain ⟨rfl, -⟩ := List.cons.inj starts
          rw [fill_placeholder, value]
          exact .inl ⟨_, rfl⟩
      · rw [Config.braced_toList] at starts
        obtain ⟨-, rfl⟩ := List.cons.inj starts
        exact .inr ⟨_, rfl⟩

/-- A placeholder does not start inside what has been put in. -/
theorem replaceFrom_filled {value text : List Char} (single : '{' ∉ key.toList)
    (unbraced : Unbraced (text ++ fill (fun key => (valueOf key).toList) rest)) :
    Text.replaceFrom (Config.braced key).toList value 0 (text ++ fill (textAfter valueOf done) rest) =
      text ++ Text.replaceFrom (Config.braced key).toList value 0 (fill (textAfter valueOf done) rest) := by
  induction text with
  | nil => rfl
  | cons c text ih =>
    have inner : Unbraced (text ++ fill (fun key => (valueOf key).toList) rest) := unbraced.tail
    rw [List.cons_append, Text.replaceFrom_pass, ih inner, List.cons_append]
    rintro ⟨after, here⟩
    rw [Config.braced_toList, List.cons_append, List.cons_append] at here
    obtain ⟨rfl, next⟩ := List.cons.inj here
    cases text with
    | cons d text =>
      obtain ⟨rfl, -⟩ := List.cons.inj next
      exact not_unbraced _ unbraced
    | nil =>
      rcases head_textAfter next.symm with ⟨others, starts⟩ | ⟨others, third⟩
      · rw [starts] at unbraced
        exact not_unbraced _ unbraced
      · -- The third character of the placeholder is not an opening brace.
        cases chars : key.toList with
        | nil =>
          rw [chars] at third
          exact absurd (List.cons.inj third).1 (by decide)
        | cons d more =>
          rw [chars] at third single
          exact single ((List.cons.inj third).1 ▸ List.mem_cons_self)

/-- A text without opening braces is passed. -/
theorem replaceFrom_unopened {pattern value text more : List Char} (plain : '{' ∉ text) :
    Text.replaceFrom ('{' :: pattern) value 0 (text ++ more) = text ++ Text.replaceFrom ('{' :: pattern) value 0 more := by
  induction text with
  | nil => rfl
  | cons c text ih =>
    obtain ⟨other, later⟩ := List.ne_and_not_mem_of_not_mem_cons plain
    rw [List.cons_append, Text.replaceFrom_pass, ih later, List.cons_append]
    rintro ⟨after, here⟩
    exact other (List.cons.inj here).1

/-- The placeholder of another key is passed. -/
theorem replaceFrom_other {name : String} {value more : List Char} (single : '{' ∉ name.toList)
    (closed : Closed key.toList) (nameClosed : Closed name.toList) (other : name ≠ key) :
    Text.replaceFrom (Config.braced key).toList value 0 ((Config.braced name).toList ++ more) =
      (Config.braced name).toList ++ Text.replaceFrom (Config.braced key).toList value 0 more := by
  have outside : ¬ (Config.braced key).toList <+: '{' :: '{' :: (name.toList ++ ['}', '}'] ++ more) := by
    intro here
    rw [Config.braced_toList, List.cons_prefix_cons, List.cons_prefix_cons] at here
    have behind : key.toList ++ ['}', '}'] <+: name.toList ++ '}' :: '}' :: more := by simpa using here.2.2
    exact other (String.toList_inj.mp (closed.eq nameClosed behind)).symm
  have second : ¬ (Config.braced key).toList <+: '{' :: (name.toList ++ ['}', '}'] ++ more) := by
    intro here
    rw [Config.braced_toList, List.cons_prefix_cons] at here
    obtain ⟨after, same⟩ := here.2
    cases chars : name.toList with
    | nil =>
      rw [chars] at same
      exact absurd (List.cons.inj same).1 (by decide)
    | cons d inner =>
      rw [chars] at same single
      exact single ((List.cons.inj same).1 ▸ List.mem_cons_self)
  have plain : '{' ∉ name.toList ++ ['}', '}'] := by simp [single]
  rw [Config.braced_toList name, List.cons_append, List.cons_append, Text.replaceFrom_pass outside,
    Text.replaceFrom_pass second, Config.braced_toList key, replaceFrom_unopened plain]
  rfl

/-- One replacement puts the value of its key in, and changes nothing else. -/
theorem replaceFrom_step {pieces : List Piece} (done : List String) (single : '{' ∉ key.toList) (closed : Closed key.toList)
    (plain : ∀ name ∈ pieces.filterMap Piece.key?, '{' ∉ name.toList ∧ Closed name.toList)
    (unbraced : Unbraced (fill (fun key => (valueOf key).toList) pieces)) :
    Text.replaceFrom (Config.braced key).toList (valueOf key).toList 0 (fill (textAfter valueOf done) pieces) =
      fill (textAfter valueOf (key :: done)) pieces := by
  induction pieces with
  | nil => rfl
  | cons piece rest ih =>
    cases piece with
    | char c =>
      have step := ih plain unbraced.tail
      have first : Text.replaceFrom (Config.braced key).toList (valueOf key).toList 0
          ([c] ++ fill (textAfter valueOf done) rest) = [c] ++ _ := replaceFrom_filled single unbraced
      exact first.trans (congrArg (c :: ·) step)
    | placeholder name =>
      obtain ⟨⟨nameSingle, nameClosed⟩, later⟩ := List.forall_mem_cons.mp plain
      have step := ih later unbraced.right
      rw [fill_placeholder, fill_placeholder, ← step]
      by_cases before : name ∈ done
      · -- The value is there already.
        have shown : textAfter valueOf done name = (valueOf name).toList := if_pos before
        have kept : textAfter valueOf (key :: done) name = (valueOf name).toList := if_pos (List.mem_cons_of_mem _ before)
        rw [shown, kept]
        exact replaceFrom_filled single unbraced
      · have shown : textAfter valueOf done name = (Config.braced name).toList := if_neg before
        rw [shown]
        by_cases same : name = key
        · subst same
          have put : textAfter valueOf (name :: done) name = (valueOf name).toList := if_pos List.mem_cons_self
          rw [put]
          exact Text.replaceFrom_pattern (by simp [Config.braced_toList]) _
        · have left : textAfter valueOf (key :: done) name = (Config.braced name).toList :=
            if_neg (by simp [same, before])
          rw [left]
          exact replaceFrom_other nameSingle closed nameClosed same

/-- The replacements of the keys put in the values of all of them. -/
theorem render_step {pieces : List Piece} {keys : List String} (done : List String)
    (plainKeys : ∀ key ∈ keys, '{' ∉ key.toList ∧ Closed key.toList)
    (plain : ∀ name ∈ pieces.filterMap Piece.key?, '{' ∉ name.toList ∧ Closed name.toList)
    (unbraced : Unbraced (fill (fun key => (valueOf key).toList) pieces)) :
    (render (String.ofList (fill (textAfter valueOf done) pieces)) (keys.map fun key => (key, valueOf key))).toList =
      fill (textAfter valueOf (keys.reverse ++ done)) pieces := by
  induction keys generalizing done with
  | nil => exact String.toList_ofList
  | cons key keys ih =>
    obtain ⟨⟨single, closed⟩, later⟩ := List.forall_mem_cons.mp plainKeys
    have step := replaceFrom_step done single closed plain unbraced
    have one : Text.replaceAll (String.ofList (fill (textAfter valueOf done) pieces)) (Config.braced key) (valueOf key) =
        String.ofList (fill (textAfter valueOf (key :: done)) pieces) := by
      rw [Text.replaceAll, String.toList_ofList, step]
    have rest := ih (key :: done) later
    rw [← one] at rest
    rw [List.reverse_cons, List.append_assoc]
    exact rest

/-- The text of the pieces depends on the keys in them only. -/
theorem fill_congr {pieces : List Piece} {text other : String → List Char}
    (agree : ∀ key ∈ pieces.filterMap Piece.key?, text key = other key) : fill text pieces = fill other pieces := by
  induction pieces with
  | nil => rfl
  | cons piece rest ih =>
    cases piece with
    | char c => rw [fill_char, fill_char, ih agree]
    | placeholder key =>
      obtain ⟨here, later⟩ := List.forall_mem_cons.mp agree
      rw [fill_placeholder, fill_placeholder, here, ih later]

/-- The replacements make what one pass makes, where that has no opening pair of braces. -/
theorem render_eq_simultaneous {template : String} {keys : List String} (read : placeholders template = .ok keys)
    (single : ∀ key ∈ keys, '{' ∉ key.toList) (unbraced : Unbraced (simultaneous template valueOf).toList) :
    render template (keys.map fun key => (key, valueOf key)) = simultaneous template valueOf := by
  obtain ⟨written, names, closed⟩ := scan_pieces read
  have plain : ∀ key ∈ keys, '{' ∉ key.toList ∧ Closed key.toList :=
    fun key listed => ⟨single key listed, closed key listed⟩
  rw [simultaneous, String.toList_ofList] at unbraced
  have whole := render_step [] plain (names ▸ plain) unbraced
  have start : fill (textAfter valueOf []) (pieces none template.toList) = template.toList := written
  have finish : fill (textAfter valueOf (keys.reverse ++ [])) (pieces none template.toList) =
      fill (fun key => (valueOf key).toList) (pieces none template.toList) := by
    refine fill_congr fun key listed => if_pos ?_
    rw [names] at listed
    simpa using listed
  rw [start, finish, String.ofList_toList] at whole
  exact String.toList_inj.mp (whole.trans String.toList_ofList.symm)

end

end Template

/-! ### The values of a request -/

/-- The value of the tag of a key. -/
def tagValue (tags : List Tag) (key : String) : String := ((tagFor tags key).map Tag.value).getD ""

/-- The template of an operator value, with the values of the tags put in in one pass. -/
def OperatorValueSpec.simultaneous (spec : OperatorValueSpec) (tags : List Tag) : String :=
  Template.simultaneous (spec.asTemplate.getD "") (tagValue tags)

section

variable {tags : List Tag} {allowGatedKey : Option String} {spec : OperatorValueSpec} {what text : String}

/-- The values that are put in are those of the tags. -/
theorem mapM_templateVar {keys : List String} {vars : List (String × String)}
    (mapped : keys.mapM (templateVar tags allowGatedKey) = .ok vars) :
    vars = keys.map fun key => (key, tagValue tags key) := by
  have each : ∀ key ∈ keys, templateVar tags allowGatedKey key = .ok (key, tagValue tags key) := by
    intro key listed
    obtain ⟨var, -, one⟩ := Fallible.exists_of_mem_mapM mapped key listed
    obtain ⟨tag, found, rfl, -⟩ := templateVar_ok one
    rw [one, tagValue, found, tagFor_key found]
    rfl
  exact Except.ok.inj (mapped.symm.trans (Fallible.mapM_ok_of_forall each))

/-- A text that is not refused is the template of its value after the replacements, and has no opening pair of braces. -/
theorem renderOperatorTemplate_parts (rendered : renderOperatorTemplate spec what tags allowGatedKey = .ok text) :
    ∃ template keys, spec.asTemplate = some template ∧ Template.placeholders template = .ok keys ∧ spec.keys = keys ∧
      text = Template.render template (keys.map fun key => (key, tagValue tags key)) ∧ Template.Unbraced text.toList := by
  obtain ⟨template, keys, vars, named, parsed, mapped, own, rfl, unbraced⟩ := renderOperatorTemplate_made rendered
  rw [Option.not_isSome_iff_eq_none, Text.after?_eq_none_iff (by simp)] at unbraced
  exact ⟨template, keys, named, parsed, own, by rw [mapM_templateVar mapped], unbraced⟩

/-- The values of an accepted config name their keys without braces. -/
theorem operatorValues_single {Expr : Type} {lib : Config.Compilers Expr} {cfg : Config}
    (accepted : Config.configErrors lib cfg = []) (listed : spec ∈ Config.operatorValues cfg) :
    ∀ key ∈ spec.keys, '{' ∉ key.toList := by
  intro key named inside
  exact absurd ((Config.operatorValues_keys accepted listed key named).2 '{' inside) (by decide)

/-- A text that is not refused is the one that a single pass makes exactly when that one has no opening pair of braces. -/
theorem render_simultaneous_iff (single : ∀ key ∈ spec.keys, '{' ∉ key.toList)
    (rendered : renderOperatorTemplate spec what tags allowGatedKey = .ok text) :
    text = spec.simultaneous tags ↔ Template.Unbraced (spec.simultaneous tags).toList := by
  obtain ⟨template, keys, named, parsed, own, rfl, unbraced⟩ := renderOperatorTemplate_parts rendered
  constructor
  · intro same
    rwa [← same]
  · intro closed
    have whole : spec.simultaneous tags = Template.simultaneous template (tagValue tags) := by
      rw [OperatorValueSpec.simultaneous, named, Option.getD_some]
    rw [whole] at closed ⊢
    exact Template.render_eq_simultaneous parsed (own ▸ single) closed

/-- A name of two keys, with values that have no braces. -/
theorem plain_values_stand :
    let spec : OperatorValueSpec := .bare "\x7b\x7bteam\x7d\x7d-\x7b\x7buser\x7d\x7d"
    let tags : List Tag := [⟨"user", "ann", .proven⟩, ⟨"team", "ml", .proven⟩]
    "ml-ann" = spec.simultaneous tags ↔ Template.Unbraced (spec.simultaneous tags).toList := by
  have single : ∀ key ∈ (OperatorValueSpec.bare "\x7b\x7bteam\x7d\x7d-\x7b\x7buser\x7d\x7d").keys, '{' ∉ key.toList := by
    decide
  have rendered : renderOperatorTemplate (.bare "\x7b\x7bteam\x7d\x7d-\x7b\x7buser\x7d\x7d") "session_name"
      [⟨"user", "ann", .proven⟩, ⟨"team", "ml", .proven⟩] none = .ok "ml-ann" := by decide
  exact render_simultaneous_iff single rendered

/-- A value that is written as a placeholder takes the value of its key. -/
theorem value_is_read_as_placeholder :
    let spec : OperatorValueSpec := .bare "\x7b\x7buser\x7d\x7d-\x7b\x7bteam\x7d\x7d"
    let tags : List Tag := [⟨"user", "\x7b\x7bteam\x7d\x7d", .proven⟩, ⟨"team", "ml", .proven⟩]
    renderOperatorTemplate spec "session_name" tags none = .ok "ml-ml" ∧
      spec.simultaneous tags = "\x7b\x7bteam\x7d\x7d-ml" ∧ "ml-ml" ≠ spec.simultaneous tags := by
  decide

end

end SmallGateway
