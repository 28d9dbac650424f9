import SmallGateway.ConstructGate

/-!
How exact the scan for templating directives is (`no_forbidden_construct` in `gatewayctl/src/admission.rs`). It strips
opening and closing braces as often as they stand there, so that a placeholder with its opening braces repeated, and one
that is not closed before the end of the text, pass as the placeholder. The scan and a reader of complete placeholders
disagree exactly on the texts whose directives are all placeholders but for that (`scan_exact_iff`).
-/

namespace SmallGateway.Config

def allowedNames : List String := ["key", "route"]

/-! ### Complete placeholders -/

/-- The text before the first closing braces, and the text after them. -/
def splitClosing : List Char → Option (List Char × List Char)
  | [] => none
  | '}' :: '}' :: rest => some ([], rest)
  | c :: rest => (splitClosing rest).map fun (inner, after) => (c :: inner, after)

/-- The inner text of a placeholder, trimmed of white space, is one of the names. -/
def AllowedName (inner : List Char) : Prop := Text.trim (String.ofList inner) ∈ allowedNames

/-- From the left, every opening of the text begins a complete placeholder. -/
inductive Exact : List Char → Prop
  | nil : Exact []
  | other {c : Char} {rest : List Char} (plain : ∀ inside, c :: rest ≠ '{' :: '{' :: inside) (exact : Exact rest) :
    Exact (c :: rest)
  | placeholder {text inner rest : List Char} (complete : splitClosing text = some (inner, rest))
    (named : AllowedName inner) (exact : Exact rest) : Exact ('{' :: '{' :: text)

/-! ### Placeholders but for their braces -/

/-- The directive is a placeholder, but for opening braces that are repeated and a closing that may be missing. -/
def Spelled (directive : List Char) : Prop :=
  ∃ name ∈ allowedNames, ∃ repeated lead trail closing, (∀ c ∈ lead ++ trail, Text.isWhitespace c = true) ∧
    (closing = [] ∨ closing = ['}', '}']) ∧
      directive = '{' :: '{' :: (List.replicate (2 * repeated) '{' ++ lead ++ name.toList ++ trail ++ closing)

/-- The directive opens with four braces, or is not closed. -/
def Loose (directive : List Char) : Prop := ['{', '{', '{', '{'] <+: directive ∨ ¬ ['}', '}'] <:+ directive

/-! ### The scan, directive by directive -/

theorem splitClosing_some {text inner rest : List Char} (complete : splitClosing text = some (inner, rest)) :
    text = inner ++ '}' :: '}' :: rest ∧ inner.getLast? ≠ some '}' := by
  induction text using splitClosing.induct generalizing inner with
  | case1 => simp [splitClosing] at complete
  | case2 after =>
    simp only [splitClosing, Option.some.injEq, Prod.mk.injEq] at complete
    obtain ⟨rfl, rfl⟩ := complete
    exact ⟨rfl, by simp⟩
  | case3 c after plain ih =>
    rw [splitClosing, Option.map_eq_some_iff] at complete
    · obtain ⟨⟨before, behind⟩, found, same⟩ := complete
      obtain ⟨rfl, rfl⟩ := Prod.mk.inj same
      obtain ⟨rfl, last⟩ := ih found
      refine ⟨rfl, ?_⟩
      cases before with
      | nil =>
        intro closes
        obtain rfl : c = '}' := by simpa using closes
        exact plain _ rfl rfl
      | cons d before => simpa using last
    · exact plain

theorem splitClosing_none {text : List Char} (open_ : splitClosing text = none) : ¬ ['}', '}'] <:+: text := by
  induction text using splitClosing.induct with
  | case1 => simp
  | case2 after => simp [splitClosing] at open_
  | case3 c after plain ih =>
    rw [splitClosing, Option.map_eq_none_iff] at open_
    · rw [List.infix_cons_iff, not_or]
      refine ⟨?_, ih open_⟩
      rintro ⟨behind, same⟩
      obtain ⟨rfl, rfl⟩ := List.cons.inj same
      exact plain _ rfl rfl
    · exact plain

/-- Inside a directive, the scan reads up to the first closing, or to the end. -/
theorem scan_inside (opened text : List Char) :
    scanDirectives (some opened) text =
      match splitClosing text with
      | some (inner, rest) => String.ofList (opened.reverse ++ inner ++ ['}', '}']) :: scanDirectives none rest
      | none => [String.ofList (opened.reverse ++ text)] := by
  induction text using splitClosing.induct generalizing opened with
  | case1 => simp [splitClosing, scanDirectives]
  | case2 after => simp [splitClosing, scanDirectives]
  | case3 c after plain ih =>
    rw [splitClosing, scanDirectives, ih]
    · cases splitClosing after <;> simp
    · exact plain
    · exact plain

/-- A directive with its inner text: it is closed by the first closing there is, or reaches to the end of the text. -/
inductive Cut : List Char → List Char → Prop
  | closed {inner : List Char} (last : inner.getLast? ≠ some '}') : Cut ('{' :: '{' :: (inner ++ ['}', '}'])) inner
  | unclosed {inner : List Char} (none : ¬ ['}', '}'] <:+: inner) : Cut ('{' :: '{' :: inner) inner

/-- The directive is a complete placeholder. -/
def Complete (directive : List Char) : Prop :=
  ∃ inner, directive = '{' :: '{' :: (inner ++ ['}', '}']) ∧ AllowedName inner

/-- The text outside of directives is skipped. -/
theorem scan_outside {c : Char} {rest : List Char} (plain : ∀ inside, c :: rest ≠ '{' :: '{' :: inside) :
    scanDirectives none (c :: rest) = scanDirectives none rest := by
  rw [scanDirectives]
  exact fun inside first second => plain inside (by rw [first, second])

theorem exact_outside {c : Char} {rest : List Char} (plain : ∀ inside, c :: rest ≠ '{' :: '{' :: inside) :
    Exact (c :: rest) ↔ Exact rest := by
  constructor
  · intro exact
    cases exact with
    | other _ exact => exact exact
    | placeholder => exact absurd rfl (plain _)
  · exact .other plain

theorem exact_opening {text : List Char} :
    Exact ('{' :: '{' :: text) ↔
      ∃ inner rest, splitClosing text = some (inner, rest) ∧ AllowedName inner ∧ Exact rest := by
  constructor
  · intro exact
    cases exact with
    | other plain _ => exact absurd rfl (plain text)
    | placeholder complete named exact => exact ⟨_, _, complete, named, exact⟩
  · rintro ⟨inner, rest, complete, named, exact⟩
    exact .placeholder complete named exact

theorem complete_closed {inner : List Char} : Complete ('{' :: '{' :: (inner ++ ['}', '}'])) ↔ AllowedName inner := by
  constructor
  · rintro ⟨other, same, named⟩
    simp only [List.cons.injEq, true_and, List.append_cancel_right_eq] at same
    rwa [same]
  · exact fun named => ⟨inner, rfl, named⟩

theorem not_complete_unclosed {inner : List Char} (none : ¬ ['}', '}'] <:+: inner) :
    ¬ Complete ('{' :: '{' :: inner) := by
  rintro ⟨other, same, -⟩
  simp only [List.cons.injEq, true_and] at same
  exact none ⟨other, [], by rw [same, List.append_nil]⟩

/-- Every directive that the scan finds is cut, and all of them are complete placeholders exactly where the text is
    exact. -/
theorem scan_exact (text : List Char) :
    (∀ directive ∈ scanDirectives none text, ∃ inner, Cut directive.toList inner) ∧
      (Exact text ↔ ∀ directive ∈ scanDirectives none text, Complete directive.toList) := by
  induction n : text.length using Nat.strong_induction_on generalizing text with
  | _ n ih =>
    subst n
    cases text with
    | nil => exact ⟨by simp [scanDirectives], by simpa [scanDirectives] using Exact.nil⟩
    | cons c rest =>
      by_cases opens : ∃ inside, c :: rest = '{' :: '{' :: inside
      · obtain ⟨inside, same⟩ := opens
        rw [same, scanDirectives, scan_inside, exact_opening]
        have shorter : inside.length < (c :: rest).length := by
          rw [same, List.length_cons, List.length_cons]
          omega
        cases complete : splitClosing inside with
        | none =>
          have unclosed := splitClosing_none complete
          simp only [List.forall_mem_singleton, String.toList_ofList]
          refine ⟨⟨inside, .unclosed unclosed⟩, iff_of_false ?_ (not_complete_unclosed unclosed)⟩
          rintro ⟨inner, after, found, -⟩
          cases found
        | some split =>
          obtain ⟨inner, after⟩ := split
          obtain ⟨parts, last⟩ := splitClosing_some complete
          have below : after.length < (c :: rest).length := by
            have lengths := congrArg List.length parts
            rw [List.length_append, List.length_cons, List.length_cons] at lengths
            omega
          obtain ⟨cuts, exact⟩ := ih after.length below after rfl
          simp only [List.forall_mem_cons, String.toList_ofList]
          refine ⟨⟨⟨inner, .closed last⟩, cuts⟩, ?_⟩
          have own : Complete ('{' :: '{' :: (inner ++ ['}', '}'])) ↔ AllowedName inner := complete_closed
          constructor
          · rintro ⟨_, _, found, named, exactRest⟩
            obtain ⟨rfl, rfl⟩ := Prod.mk.inj (Option.some.inj found)
            exact ⟨own.mpr named, exact.mp exactRest⟩
          · rintro ⟨first, others⟩
            exact ⟨inner, after, rfl, own.mp first, exact.mpr others⟩
      · have plain : ∀ inside, c :: rest ≠ '{' :: '{' :: inside := fun inside same => opens ⟨inside, same⟩
        rw [scan_outside plain, exact_outside plain]
        exact ih rest.length (Nat.lt_succ_self _) rest rfl

/-! ### What is stripped -/

theorem trimOpening_append (text after : List Char) :
    trimOpening (text ++ '}' :: after) = trimOpening text ++ '}' :: after := by
  induction text using trimOpening.induct with
  | case1 rest ih => exact ih
  | case2 text plain =>
    rw [trimOpening]
    · rw [trimOpening]
      exact plain
    · intro rest same
      rcases text with _ | ⟨c, _ | ⟨d, behind⟩⟩
      · cases same
      · simp at same
      · obtain ⟨rfl, rfl, -⟩ : c = '{' ∧ d = '{' ∧ behind ++ '}' :: after = rest := by simpa using same
        exact plain behind rfl

/-- Opening braces are stripped in pairs. -/
theorem trimOpening_parts (text : List Char) :
    ∃ repeated, text = List.replicate (2 * repeated) '{' ++ trimOpening text := by
  induction text using trimOpening.induct with
  | case1 rest ih =>
    obtain ⟨repeated, parts⟩ := ih
    exact ⟨repeated + 1, congrArg (fun stripped => '{' :: '{' :: stripped) parts⟩
  | case2 text plain =>
    refine ⟨0, ?_⟩
    rw [trimOpening]
    · rfl
    · exact plain

theorem trimOpening_replicate (repeated : Nat) (text : List Char) :
    trimOpening (List.replicate (2 * repeated) '{' ++ text) = trimOpening text := by
  induction repeated with
  | zero => rfl
  | succ repeated ih => exact ih

theorem trimOpening_eq_self {text : List Char} (plain : ¬ ['{', '{'] <+: text) : trimOpening text = text := by
  rw [trimOpening]
  rintro rest rfl
  exact plain ⟨rest, rfl⟩

theorem trimClosing_eq_self {text : List Char} (plain : ¬ ['}', '}'] <+: text) : trimClosing text = text := by
  rw [trimClosing]
  rintro rest rfl
  exact plain ⟨rest, rfl⟩

/-- White space around an allowed name. -/
structure Padded (text : List Char) (name : String) (lead trail : List Char) : Prop where
  allowed : name ∈ allowedNames
  blank : ∀ c ∈ lead ++ trail, Text.isWhitespace c = true
  parts : text = lead ++ name.toList ++ trail

theorem Padded.plain {text lead trail : List Char} {name : String} (padded : Padded text name lead trail) :
    ∀ c ∈ text, c ≠ '{' ∧ c ≠ '}' := by
  intro c inside
  rw [padded.parts, List.append_assoc, List.mem_append, List.mem_append] at inside
  have spaces (blank : Text.isWhitespace c = true) : c ≠ '{' ∧ c ≠ '}' := by
    constructor <;> (rintro rfl; revert blank; decide)
  rcases inside with early | own | late
  · exact spaces (padded.blank c (List.mem_append_left _ early))
  · have letters : ∀ name ∈ allowedNames, ∀ c ∈ name.toList, c ≠ '{' ∧ c ≠ '}' := by
      simp [allowedNames]
    exact letters name padded.allowed c own
  · exact spaces (padded.blank c (List.mem_append_right _ late))

/-- A name between white space is trimmed to the name. -/
theorem Padded.trim {text lead trail : List Char} {name : String} (padded : Padded text name lead trail) :
    Text.trim (String.ofList text) = name := by
  have key : ∀ name ∈ allowedNames, KeyName name := by decide
  rw [padded.parts]
  refine trim_padded (key name padded.allowed) (fun c inside => ?_) (fun c inside => ?_)
  · exact padded.blank c (List.mem_append_left _ inside)
  · exact padded.blank c (List.mem_append_right _ inside)

/-- A text is what it is trimmed to, between white space. -/
theorem trim_parts (text : List Char) : ∃ lead trail, (∀ c ∈ lead ++ trail, Text.isWhitespace c = true) ∧
    text = lead ++ (Text.trim (String.ofList text)).toList ++ trail := by
  let rest := text.dropWhile Text.isWhitespace
  refine ⟨text.takeWhile Text.isWhitespace, (rest.reverse.takeWhile Text.isWhitespace).reverse, ?_, ?_⟩
  · intro c inside
    rcases List.mem_append.mp inside with early | late
    · exact List.mem_takeWhile_imp early
    · exact List.mem_takeWhile_imp (List.mem_reverse.mp late)
  · rw [Text.trim, String.toList_ofList, String.toList_ofList, List.append_assoc, ← List.reverse_append,
      List.takeWhile_append_dropWhile, List.reverse_reverse, List.takeWhile_append_dropWhile]

theorem named_iff {text : List Char} : AllowedName text ↔ ∃ name lead trail, Padded text name lead trail := by
  constructor
  · intro named
    obtain ⟨lead, trail, blank, parts⟩ := trim_parts text
    exact ⟨_, lead, trail, named, blank, parts⟩
  · rintro ⟨name, lead, trail, padded⟩
    rw [AllowedName, padded.trim]
    exact padded.allowed

theorem trimOpening_suffix (text : List Char) : trimOpening text <:+ text := by
  obtain ⟨repeated, parts⟩ := trimOpening_parts text
  exact ⟨_, parts.symm⟩

/-- What is left of a directive that is cut is its inner text, without opening braces. -/
theorem stripped_cut {directive inner : List Char} (cut : Cut directive inner) :
    (trimClosing (trimOpening directive).reverse).reverse = trimOpening inner := by
  have suffix := trimOpening_suffix inner
  cases cut with
  | closed last =>
    have stripped : trimOpening ('{' :: '{' :: (inner ++ ['}', '}'])) = trimOpening inner ++ ['}', '}'] :=
      trimOpening_append inner ['}']
    have plain : ¬ ['}', '}'] <+: (trimOpening inner).reverse := by
      rintro ⟨before, same⟩
      have ends : trimOpening inner = before.reverse ++ ['}', '}'] := by
        rw [← List.reverse_reverse (trimOpening inner), ← same, List.reverse_append]
        rfl
      obtain ⟨front, parts⟩ := suffix
      rw [ends] at parts
      refine last ?_
      rw [← parts]
      simp
    rw [stripped, List.reverse_append]
    show (trimClosing (trimOpening inner).reverse).reverse = trimOpening inner
    rw [trimClosing_eq_self plain, List.reverse_reverse]
  | unclosed none =>
    have plain : ¬ ['}', '}'] <+: (trimOpening inner).reverse := by
      intro closes
      have ends : ['}', '}'] <:+ trimOpening inner := List.reverse_prefix.mp closes
      exact none (ends.trans suffix).isInfix
    show (trimClosing (trimOpening inner).reverse).reverse = trimOpening inner
    rw [trimClosing_eq_self plain, List.reverse_reverse]

theorem braced_mem_allowed {name : String} : braced name ∈ allowedDirectives ↔ name ∈ allowedNames := by
  have inj (other : String) : braced name = braced other ↔ name = other := by
    refine ⟨fun same => ?_, congrArg braced⟩
    have lists := congrArg String.toList same
    rw [braced_toList, braced_toList] at lists
    simp only [List.cons.injEq, true_and, List.append_cancel_right_eq] at lists
    exact String.toList_inj.mp lists
  have allowed : allowedDirectives = [braced "key", braced "route"] := by decide
  rw [allowed, allowedNames, List.mem_cons, List.mem_singleton, inj, inj, List.mem_cons, List.mem_singleton]

theorem passes_cut {directive : String} {inner : List Char} (cut : Cut directive.toList inner) :
    passes directive = true ↔ AllowedName (trimOpening inner) := by
  rw [passes_iff, normalized, stripped_cut cut, braced_mem_allowed]
  exact Iff.rfl

/-! ### Where the scan is exact -/

theorem loose_closed {inner : List Char} : Loose ('{' :: '{' :: (inner ++ ['}', '}'])) ↔ ['{', '{'] <+: inner := by
  have ends : ['}', '}'] <:+ '{' :: '{' :: (inner ++ ['}', '}']) := ⟨'{' :: '{' :: inner, rfl⟩
  rw [Loose, List.cons_prefix_cons, List.cons_prefix_cons]
  simp only [true_and, ends, not_true_eq_false, or_false]
  match inner with
  | [] => decide
  | [c] => simp
  | c :: d :: rest => simp

theorem loose_unclosed {inner : List Char} (none : ¬ ['}', '}'] <:+: inner) : Loose ('{' :: '{' :: inner) := by
  refine .inr ?_
  rintro ⟨before, same⟩
  match before, same with
  | [], same => simp at same
  | [c], same => simp at same
  | c :: d :: before, same =>
    obtain ⟨-, -, rfl⟩ : c = '{' ∧ d = '{' ∧ before ++ ['}', '}'] = inner := by simpa using same
    exact none (List.suffix_append before ['}', '}']).isInfix

theorem not_named_opening {inner : List Char} (opens : ['{', '{'] <+: inner) : ¬ AllowedName inner := by
  intro named
  obtain ⟨name, lead, trail, padded⟩ := named_iff.mp named
  exact (padded.plain '{' (opens.subset List.mem_cons_self)).1 rfl

/-- A text without closing braces, perhaps closed after it, is the inner text of its directive. -/
theorem inner_of_cut {directive inner body closing : List Char} (cut : Cut directive inner)
    (same : directive = '{' :: '{' :: (body ++ closing)) (ends : closing = [] ∨ closing = ['}', '}'])
    (plain : '}' ∉ body) : inner = body := by
  cases cut with
  | closed last =>
    rcases ends with rfl | rfl
    · have parts : inner ++ ['}', '}'] = body := by simpa using same
      exact absurd (parts ▸ List.mem_append_right inner List.mem_cons_self) plain
    · simpa using same
  | unclosed none =>
    rcases ends with rfl | rfl
    · simpa using same
    · have parts : inner = body ++ ['}', '}'] := by simpa using same
      exact absurd (parts ▸ (List.suffix_append body ['}', '}']).isInfix) none

/-- A directive that is cut is spelled as a placeholder exactly when its inner text is one without opening braces. -/
theorem spelled_cut {directive inner : List Char} (cut : Cut directive inner) :
    Spelled directive ↔ AllowedName (trimOpening inner) := by
  constructor
  · rintro ⟨name, allowed, repeated, lead, trail, closing, blank, ends, same⟩
    have padded : Padded (lead ++ name.toList ++ trail) name lead trail := ⟨allowed, blank, rfl⟩
    have text : inner = List.replicate (2 * repeated) '{' ++ (lead ++ name.toList ++ trail) := by
      refine inner_of_cut cut (by simpa using same) ends fun inside => ?_
      rcases List.mem_append.mp inside with opening | own
      · exact absurd (List.eq_of_mem_replicate opening) (by decide)
      · exact (padded.plain '}' own).2 rfl
    have plain : ¬ ['{', '{'] <+: lead ++ name.toList ++ trail := fun opens =>
      (padded.plain '{' (opens.subset List.mem_cons_self)).1 rfl
    rw [text, trimOpening_replicate, trimOpening_eq_self plain]
    exact named_iff.mpr ⟨name, lead, trail, padded⟩
  · intro named
    obtain ⟨name, lead, trail, padded⟩ := named_iff.mp named
    obtain ⟨repeated, parts⟩ := trimOpening_parts inner
    rw [padded.parts] at parts
    cases cut with
    | closed last =>
      refine ⟨name, padded.allowed, repeated, lead, trail, ['}', '}'], padded.blank, .inr rfl, ?_⟩
      rw [parts]
      simp
    | unclosed none =>
      refine ⟨name, padded.allowed, repeated, lead, trail, [], padded.blank, .inl rfl, ?_⟩
      rw [parts]
      simp

/-- A directive that is spelled as a placeholder is complete exactly when it is not loose. -/
theorem complete_spelled {directive inner : List Char} (cut : Cut directive inner) (spelled : Spelled directive) :
    Complete directive ↔ ¬ Loose directive := by
  rw [spelled_cut cut] at spelled
  cases cut with
  | closed last =>
    rw [complete_closed, loose_closed]
    constructor
    · exact fun named opens => not_named_opening opens named
    · intro plain
      rwa [trimOpening_eq_self plain] at spelled
  | unclosed none => exact iff_of_false (not_complete_unclosed none) (not_not.mpr (loose_unclosed none))

/-- A complete placeholder is spelled as one. -/
theorem spelled_of_complete {directive : List Char} (complete : Complete directive) : Spelled directive := by
  obtain ⟨inner, rfl, named⟩ := complete
  obtain ⟨name, lead, trail, padded⟩ := named_iff.mp named
  refine ⟨name, padded.allowed, 0, lead, trail, ['}', '}'], padded.blank, .inr rfl, ?_⟩
  rw [padded.parts]
  simp

/-- For every text: the scan reports nothing exactly where every opening begins a complete placeholder, if and only if
    not all of the directives are spelled as placeholders, or none of them opens with four braces or is not closed. -/
theorem scan_exact_iff (flatYaml : String) :
    (noForbiddenConstruct flatYaml = [] ↔ Exact flatYaml.toList) ↔
      ¬ ((∀ directive ∈ directives flatYaml, Spelled directive.toList) ∧
        ∃ directive ∈ directives flatYaml, Loose directive.toList) := by
  obtain ⟨cuts, exact⟩ := scan_exact flatYaml.toList
  have reports : noForbiddenConstruct flatYaml = [] ↔ ∀ directive ∈ directives flatYaml, Spelled directive.toList := by
    rw [noForbiddenConstruct, checkDirectives_nil]
    refine forall₂_congr fun directive listed => ?_
    obtain ⟨inner, cut⟩ := cuts directive listed
    rw [passes_cut cut, spelled_cut cut]
  rw [reports, exact]
  constructor
  · rintro same ⟨spelled, directive, listed, loose⟩
    obtain ⟨inner, cut⟩ := cuts directive listed
    exact (complete_spelled cut (spelled directive listed)).mp (same.mp spelled directive listed) loose
  · intro tight
    refine ⟨fun spelled directive listed => ?_, fun complete directive listed =>
      spelled_of_complete (complete directive listed)⟩
    obtain ⟨inner, cut⟩ := cuts directive listed
    exact (complete_spelled cut (spelled directive listed)).mpr fun loose =>
      tight ⟨spelled, directive, listed, loose⟩

/-- Doubled opening braces and a placeholder that is not closed pass the scan. -/
theorem doubled_braces_pass :
    let flatYaml := "body: \x7b\x7b\x7b\x7bkey\x7d\x7d on \x7b\x7broute"
    noForbiddenConstruct flatYaml = [] ∧ ¬ Exact flatYaml.toList := by
  intro flatYaml
  refine ⟨by decide, fun exact => ?_⟩
  have found : directives flatYaml = ["\x7b\x7b\x7b\x7bkey\x7d\x7d", "\x7b\x7broute"] := by decide
  have complete := (scan_exact flatYaml.toList).2.mp exact "\x7b\x7broute" (by
    show _ ∈ directives flatYaml
    rw [found]
    simp)
  have unclosed : ¬ ['}', '}'] <:+: "route".toList := by decide
  exact not_complete_unclosed unclosed complete

end SmallGateway.Config
