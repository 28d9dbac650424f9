import SmallGateway.Budget
import SmallGateway.Lib.JsonRead

/-!
The body of an alert for a webhook (`WebhookAlertSink::body` in `gateway-core/src/budget.rs`). The attribution key, its
value and the name of the node are put between quotes as they are, so the body reads back as the alert exactly when
none of them has a quote, a backslash or a control character (`body_tells_iff`).
-/

namespace SmallGateway

open Json

namespace AlertKind

/-- The name of a kind in the body. -/
def text : AlertKind → String
  | softThreshold _ => "soft_threshold"
  | hardCap => "hard_cap"

/-- The fraction of the cap that an alert of the kind is about. -/
def fraction : AlertKind → ℚ
  | softThreshold fraction => fraction
  | hardCap => 1

end AlertKind

namespace WebhookAlertSink

/-- The JSON body of an alert, where `display` writes a float. -/
def body (display : ℚ → String) (alert : Alert) : String :=
  let kind :=
    match alert.kind with
    | .softThreshold fraction => "soft_threshold\",\"fraction\":" ++ display fraction
    | .hardCap => "hard_cap\",\"fraction\":1.0"
  "\x7b\"kind\":\"" ++ kind ++ ",\"key\":\"" ++ alert.id.key ++ "\",\"value\":\"" ++ alert.id.value ++
    "\",\"cap_tokens\":" ++ Nat.repr alert.cap ++ ",\"spend_tokens\":" ++ Nat.repr alert.spend ++ ",\"node\":\"" ++
    alert.node ++ "\"\x7d"

/-- The fields of an alert, with a number for its fraction. -/
def fields (alert : Alert) (fraction : Number) : List (String × Value) :=
  [("kind", .string alert.kind.text), ("fraction", .number fraction), ("key", .string alert.id.key),
    ("value", .string alert.id.value), ("cap_tokens", .number (.posInt alert.cap)),
    ("spend_tokens", .number (.posInt alert.spend)), ("node", .string alert.node)]

/-- The body is a JSON object, and its fields are those of the alert. -/
def Tells (display : ℚ → String) (alert : Alert) : Prop :=
  ∃ fraction : Number, fraction.toRat = alert.kind.fraction ∧
    read (body display alert) = some (.object (fields alert fraction))

/-- How the fraction of a kind is written. -/
def fractionText (display : ℚ → String) : AlertKind → List Char
  | .softThreshold fraction => (display fraction).toList
  | .hardCap => "1.0".toList

/-- A member with a text between quotes. -/
def textMember (name : String) (text more : List Char) : List Char :=
  '"' :: (name.toList ++ '"' :: ':' :: '"' :: (text ++ '"' :: more))

/-- A member with a number. -/
def numberMember (name : String) (number more : List Char) : List Char :=
  '"' :: (name.toList ++ '"' :: ':' :: (number ++ more))

/-- The body after its brace, member by member. -/
def members (display : ℚ → String) (alert : Alert) : List Char :=
  textMember "kind" alert.kind.text.toList (',' ::
    numberMember "fraction" (fractionText display alert.kind) (',' ::
    textMember "key" alert.id.key.toList (',' ::
    textMember "value" alert.id.value.toList (',' ::
    numberMember "cap_tokens" (Nat.toDigits 10 alert.cap) (',' ::
    numberMember "spend_tokens" (Nat.toDigits 10 alert.spend) (',' ::
    textMember "node" alert.node.toList ['}']))))))

theorem body_toList (display : ℚ → String) (alert : Alert) :
    (body display alert).toList = '{' :: members display alert := by
  unfold body members textMember numberMember
  cases alert.kind with
  | softThreshold fraction =>
    simp [AlertKind.text, fractionText, String.toList_append, Nat.toList_repr]
  | hardCap =>
    simp [AlertKind.text, fractionText, String.toList_append, Nat.toList_repr]

theorem ends_comma (text : List Char) : Ends (',' :: text) := by
  intro c first
  obtain rfl := Option.some.inj first
  decide

theorem decimal_fractionText {display : ℚ → String} {kind : AlertKind}
    (shown : ∀ fraction, kind = .softThreshold fraction → Decimal (display fraction).toList fraction) :
    Decimal (fractionText display kind) kind.fraction := by
  cases kind with
  | softThreshold fraction => exact shown fraction rfl
  | hardCap =>
    refine ⟨['1'], ['0'], ⟨List.forall_mem_singleton.mpr rfl, by decide, by decide⟩, List.forall_mem_singleton.mpr rfl,
      rfl, ?_⟩
    have ten : Nat.ofDigitChars 10 (['1'] ++ ['0']) 0 = 10 := rfl
    rw [ten]
    norm_num [AlertKind.fraction]

theorem plain_kind (kind : AlertKind) : Plain kind.text.toList := by
  cases kind with
  | softThreshold fraction =>
    show Plain "soft_threshold".toList
    decide
  | hardCap =>
    show Plain "hard_cap".toList
    decide

theorem plain_names : ∀ name ∈ ["kind", "fraction", "key", "value", "cap_tokens", "spend_tokens", "node"],
    Plain name.toList := by
  decide

section

variable {name : String} {rest left : List Char} {fields : List (String × Value)}

/-- Where a text swallows its closing quote, the string ends after the comma. -/
theorem over_comma (text : List Char) :
    ∀ chars left, readString .none (',' :: '"' :: text) = some (chars, left) → chars.getLast? ≠ some '\\' := by
  intro chars left read
  have comma : readString .none (',' :: '"' :: text) = some ([','], text) := rfl
  obtain ⟨rfl, -⟩ := Prod.mk.inj (Option.some.inj (comma.symm.trans read))
  decide

theorem over_textMember (text : List Char) :
    ∀ chars left, readString .none (',' :: textMember name text rest) = some (chars, left) →
      chars.getLast? ≠ some '\\' :=
  over_comma _

theorem over_numberMember (text : List Char) :
    ∀ chars left, readString .none (',' :: numberMember name text rest) = some (chars, left) →
      chars.getLast? ≠ some '\\' :=
  over_comma _

theorem textMember_iff (listed : name ∈ ["kind", "fraction", "key", "value", "cap_tokens", "spend_tokens", "node"])
    (text : String) (tails : ∀ chars left, readString .none rest = some (chars, left) → chars.getLast? ≠ some '\\')
    (fuel : Nat) :
    readFields (fuel + 2) (textMember name text.toList rest) = some ((name, .string text) :: fields, left) ↔
      Plain text.toList ∧ readMore (fuel + 1) rest = some (fields, left) := by
  have member : readFields (fuel + 2) ('"' :: (name.toList ++ '"' :: ':' :: '"' :: (text.toList ++ '"' :: rest))) =
      some ((String.ofList name.toList, .string (String.ofList text.toList)) :: fields, left) ↔ _ :=
    readFields_string_iff (plain_names name listed) tails fuel
  rwa [String.ofList_toList, String.ofList_toList] at member

theorem numberMember_iff (listed : name ∈ ["kind", "fraction", "key", "value", "cap_tokens", "spend_tokens", "node"])
    {text : List Char} {own : Number} (digit : ∃ c others, text = c :: others ∧ c.isDigit = true)
    (reads : readNumber (text ++ rest) = some (own, rest)) (n : Number) (fuel : Nat) :
    readFields (fuel + 2) (numberMember name text rest) = some ((name, .number n) :: fields, left) ↔
      n = own ∧ readMore (fuel + 1) rest = some (fields, left) := by
  have member : readFields (fuel + 2) ('"' :: (name.toList ++ '"' :: ':' :: (text ++ rest))) =
      some ((String.ofList name.toList, .number n) :: fields, left) ↔ _ :=
    readFields_number_iff (plain_names name listed) digit reads fuel
  rwa [String.ofList_toList] at member

theorem readMore_textMember (fuel : Nat) (text : List Char) :
    readMore fuel (',' :: textMember name text rest) = readFields fuel (textMember name text rest) := rfl

theorem readMore_numberMember (fuel : Nat) (text : List Char) :
    readMore fuel (',' :: numberMember name text rest) = readFields fuel (numberMember name text rest) := rfl

end

theorem length_members (display : ℚ → String) (alert : Alert) : 8 ≤ (members display alert).length := by
  have kind : ("kind".toList).length = 4 := rfl
  unfold members
  rw [textMember, List.length_cons, List.length_append, kind, List.length_cons, List.length_cons, List.length_cons]
  omega

section

variable {display : ℚ → String} {alert : Alert}

/-- The members read as the fields of the alert exactly when its texts are plain. -/
theorem members_iff
    (shown : ∀ fraction, alert.kind = .softThreshold fraction → Decimal (display fraction).toList fraction)
    (fuel : Nat) :
    ∃ own : Number, own.toRat = alert.kind.fraction ∧ ∀ (left : List Char) (n : Number),
      readFields (fuel + 8) (members display alert) = some (fields alert n, left) ↔
        n = own ∧ Plain alert.id.key.toList ∧ Plain alert.id.value.toList ∧ Plain alert.node.toList ∧ left = [] := by
  have decimal := decimal_fractionText shown
  obtain ⟨own, value, reads⟩ := readNumber_decimal decimal
  refine ⟨own, value, fun left n => ?_⟩
  have brace : ∀ chars left, readString .none ['}'] = some (chars, left) → chars.getLast? ≠ some '\\' := nofun
  have final : readMore (fuel + 1) ['}'] = some ([], left) ↔ left = [] := by
    rw [readMore_brace]
    simp [eq_comm]
  unfold members fields
  rw [textMember_iff (by decide) alert.kind.text (over_numberMember _), readMore_numberMember,
    numberMember_iff (by decide) decimal.first (reads _ (ends_comma _)), readMore_textMember,
    textMember_iff (by decide) _ (over_textMember _), readMore_textMember,
    textMember_iff (by decide) _ (over_numberMember _), readMore_numberMember,
    numberMember_iff (by decide) (whole_toDigits _).first (readNumber_nat _ (ends_comma _)), readMore_numberMember,
    numberMember_iff (by decide) (whole_toDigits _).first (readNumber_nat _ (ends_comma _)), readMore_textMember,
    textMember_iff (by decide) _ brace, final]
  simp [plain_kind]

/-- The body of an alert is the alert as JSON exactly when neither the key nor the value nor the node has a quote, a
    backslash or a control character. -/
theorem body_tells_iff
    (shown : ∀ fraction, alert.kind = .softThreshold fraction → Decimal (display fraction).toList fraction) :
    Tells display alert ↔
      Plain alert.id.key.toList ∧ Plain alert.id.value.toList ∧ Plain alert.node.toList := by
  have size : (body display alert).length = (members display alert).length + 1 := by
    rw [← String.length_toList, body_toList, List.length_cons]
  obtain ⟨fuel, long⟩ : ∃ fuel, (body display alert).length = fuel + 8 :=
    Nat.exists_eq_add_of_le' (by have enough := length_members display alert; omega)
  obtain ⟨own, value, told⟩ := members_iff shown fuel
  have whole (n : Number) : read (body display alert) = some (.object (fields alert n)) ↔
      n = own ∧ Plain alert.id.key.toList ∧ Plain alert.id.value.toList ∧ Plain alert.node.toList := by
    rw [read_object_iff (body_toList display alert), long]
    constructor
    · rintro ⟨left, reads, -⟩
      obtain ⟨same, key, tag, node, -⟩ := (told left n).mp reads
      exact ⟨same, key, tag, node⟩
    · rintro ⟨same, key, tag, node⟩
      exact ⟨[], (told [] n).mpr ⟨same, key, tag, node, rfl⟩, rfl⟩
  constructor
  · rintro ⟨n, -, reads⟩
    exact ((whole n).mp reads).2
  · exact fun plain => ⟨own, value, (whole own).mpr ⟨rfl, plain⟩⟩

end

/-! ### One alert -/

/-- An alert at four fifths of a cap, for one value of the key `team`. -/
def teamAlert (value : String) : Alert := ⟨.softThreshold (4 / 5), ⟨"team", value⟩, 100000, 80000, "n1"⟩

theorem shown_teamAlert (value : String) : ∀ fraction, (teamAlert value).kind = .softThreshold fraction →
    Decimal "0.8".toList fraction := by
  intro fraction kind
  obtain rfl : 4 / 5 = fraction := AlertKind.softThreshold.inj kind
  refine ⟨['0'], ['8'], ⟨List.forall_mem_singleton.mpr rfl, by decide, by decide⟩, List.forall_mem_singleton.mpr rfl,
    rfl, ?_⟩
  have eight : Nat.ofDigitChars 10 (['0'] ++ ['8']) 0 = 8 := rfl
  rw [eight]
  norm_num

theorem research_alert_tells : Tells (fun _ => "0.8") (teamAlert "research") := by
  refine (body_tells_iff (shown_teamAlert "research")).mpr ?_
  decide

/-- A value with a quote in it leaves its string. -/
theorem quoted_value_breaks :
    ¬ ∀ (display : ℚ → String) (alert : Alert),
        (∀ fraction, alert.kind = .softThreshold fraction → Decimal (display fraction).toList fraction) →
        Tells display alert := by
  intro law
  have told := law (fun _ => "0.8") (teamAlert "a\"b") (shown_teamAlert "a\"b")
  have plain := ((body_tells_iff (shown_teamAlert "a\"b")).mp told).2.1
  have quote := (plain '"' (by decide)).1
  exact quote rfl

end WebhookAlertSink

end SmallGateway
