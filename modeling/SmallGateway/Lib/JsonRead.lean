import SmallGateway.Lib.Json
import Mathlib.Algebra.Field.Rat

/-!
Reading JSON texts. A string is read one character at a time (`step`), an object into its members as they are written.
A text that is put between quotes as it is reads back as it was exactly when it has no quote, no backslash and no
control character (`readString_quoted_iff`).
-/

namespace Json

/-! ### Strings -/

/-- What a string is in the middle of: an escape, the digits of a code unit after a high surrogate or none, or the
    escape of the low surrogate. -/
inductive Pending where
  | none
  | escape
  | hex (high : Option Nat) (digits : List Nat)
  | pair (high : Nat)
  | pairEscape (high : Nat)
  deriving DecidableEq

/-- What one more character of a string does. -/
inductive Step where
  | close
  | fail
  | next (out : List Char) (pending : Pending)
  deriving DecidableEq

/-- The character of a short escape. -/
def escaped : Char → Option Char
  | '"' => some '"'
  | '\\' => some '\\'
  | '/' => some '/'
  | 'b' => some '\x08'
  | 'f' => some '\x0c'
  | 'n' => some '\n'
  | 'r' => some '\r'
  | 't' => some '\t'
  | _ => none

def hexDigit? (c : Char) : Option Nat :=
  if '0' ≤ c ∧ c ≤ '9' then some (c.toNat - 48)
  else if 'a' ≤ c ∧ c ≤ 'f' then some (c.toNat - 87)
  else if 'A' ≤ c ∧ c ≤ 'F' then some (c.toNat - 55)
  else none

/-- A code unit is a character, or half of one. -/
def codeUnit (high : Option Nat) (code : Nat) : Step :=
  let surrogate := 0xD800 ≤ code ∧ code < 0xE000
  match high with
  | none =>
    if surrogate then if code < 0xDC00 then .next [] (.pair code) else .fail
    else .next [Char.ofNat code] .none
  | some high =>
    if surrogate ∧ 0xDC00 ≤ code then
      .next [Char.ofNat (0x10000 + (high - 0xD800) * 0x400 + (code - 0xDC00))] .none
    else .fail

def step : Pending → Char → Step
  | .none, c =>
    if c = '"' then .close
    else if c = '\\' then .next [] .escape
    else if c.toNat < 32 then .fail
    else .next [c] .none
  | .escape, c =>
    if c = 'u' then .next [] (.hex none [])
    else match escaped c with
      | some d => .next [d] .none
      | none => .fail
  | .hex high digits, c =>
    match hexDigit? c with
    | none => .fail
    | some d =>
      if digits.length < 3 then .next [] (.hex high (digits ++ [d]))
      else codeUnit high ((digits ++ [d]).foldl (fun code d => 16 * code + d) 0)
  | .pair high, c => if c = '\\' then .next [] (.pairEscape high) else .fail
  | .pairEscape high, c => if c = 'u' then .next [] (.hex (some high) []) else .fail

/-- The rest of a string up to its closing quote, and what is left of the text. -/
def readString : Pending → List Char → Option (List Char × List Char)
  | _, [] => none
  | pending, c :: rest =>
    match step pending c with
    | .close => some ([], rest)
    | .fail => none
    | .next out after => (readString after rest).map fun (chars, left) => (out ++ chars, left)

/-! ### Numbers -/

/-- The value of a number, whichever way it is kept. -/
def Number.toRat : Number → ℚ
  | .posInt value => value
  | .negInt value => value
  | .float value => value

def digits (text : List Char) : List Char × List Char := text.span (·.isDigit)

/-- The digits of the whole part: a zero stands alone. -/
def wholePart : List Char → Option (List Char × List Char)
  | '0' :: rest => some (['0'], rest)
  | text =>
    match digits text with
    | ([], _) => none
    | (whole, rest) => some (whole, rest)

/-- The digits after the point, when there is one. -/
def fractionPart : List Char → Option (Option (List Char) × List Char)
  | '.' :: text =>
    match digits text with
    | ([], _) => none
    | (fraction, rest) => some (some fraction, rest)
  | rest => some (none, rest)

/-- The exponent, when there is one. -/
def exponentPart : List Char → Option (Option Int × List Char)
  | c :: text =>
    if c = 'e' ∨ c = 'E' then
      let (negative, text) :=
        match text with
        | '-' :: text => (true, text)
        | '+' :: text => (false, text)
        | text => (false, text)
      match digits text with
      | ([], _) => none
      | (exponent, rest) =>
        let value : Int := Nat.ofDigitChars 10 exponent 0
        some (some (if negative then -value else value), rest)
    else some (none, c :: text)
  | [] => some (none, [])

/-- The number of its parts. -/
def number (negative : Bool) (whole : List Char) (fraction : Option (List Char)) (exponent : Option Int) : Number :=
  let signed (value : ℚ) := if negative then -value else value
  match fraction, exponent with
  | none, none =>
    let value := Nat.ofDigitChars 10 whole 0
    if negative then .negInt (-value) else .posInt value
  | fraction, exponent =>
    let fraction := fraction.getD []
    .float (signed (Nat.ofDigitChars 10 (whole ++ fraction) 0 / 10 ^ fraction.length * 10 ^ exponent.getD 0))

def readUnsigned (negative : Bool) (text : List Char) : Option (Number × List Char) := do
  let (whole, text) ← wholePart text
  let (fraction, text) ← fractionPart text
  let (exponent, text) ← exponentPart text
  return (number negative whole fraction exponent, text)

def readNumber : List Char → Option (Number × List Char)
  | '-' :: text => readUnsigned true text
  | text => readUnsigned false text

/-! ### Values -/

def isSpace (c : Char) : Bool := c == ' ' || c == '\t' || c == '\n' || c == '\r'

def skip (text : List Char) : List Char := text.dropWhile isSpace

mutual

/-- A value at the start of the text, with as many nested and following values as there is fuel. -/
def readValue : Nat → List Char → Option (Value × List Char)
  | 0, _ => none
  | fuel + 1, text =>
    match text with
    | '"' :: rest => (readString .none rest).map fun (chars, rest) => (.string (String.ofList chars), rest)
    | '{' :: rest =>
      match skip rest with
      | '}' :: rest => some (.object [], rest)
      | rest => (readFields fuel rest).map fun (fields, rest) => (.object fields, rest)
    | '[' :: rest =>
      match skip rest with
      | ']' :: rest => some (.array [], rest)
      | rest => (readItems fuel rest).map fun (items, rest) => (.array items, rest)
    | 't' :: 'r' :: 'u' :: 'e' :: rest => some (.bool true, rest)
    | 'f' :: 'a' :: 'l' :: 's' :: 'e' :: rest => some (.bool false, rest)
    | 'n' :: 'u' :: 'l' :: 'l' :: rest => some (.null, rest)
    | text => (readNumber text).map fun (number, rest) => (.number number, rest)

/-- The members of an object, as they are written, up to its closing brace. -/
def readFields : Nat → List Char → Option (List (String × Value) × List Char)
  | 0, _ => none
  | fuel + 1, text =>
    match text with
    | '"' :: rest =>
      (readString .none rest).bind fun (name, rest) =>
        match skip rest with
        | ':' :: rest =>
          (readValue fuel (skip rest)).bind fun (value, rest) =>
            match skip rest with
            | ',' :: rest =>
              (readFields fuel (skip rest)).map fun (fields, rest) => ((String.ofList name, value) :: fields, rest)
            | '}' :: rest => some ([(String.ofList name, value)], rest)
            | _ => none
        | _ => none
    | _ => none

def readItems : Nat → List Char → Option (List Value × List Char)
  | 0, _ => none
  | fuel + 1, text =>
    (readValue fuel text).bind fun (value, rest) =>
      match skip rest with
      | ',' :: rest => (readItems fuel (skip rest)).map fun (items, rest) => (value :: items, rest)
      | ']' :: rest => some ([value], rest)
      | _ => none

end

/-- The value of a JSON text, nothing when the text is no JSON. -/
def read (text : String) : Option Value :=
  match readValue (text.length + 1) (skip text.toList) with
  | some (value, rest) => if (skip rest).isEmpty then some value else none
  | none => none

/-! ### Texts between quotes -/

/-- A text without quotes, backslashes and control characters. -/
def Plain (text : List Char) : Prop := ∀ c ∈ text, c ≠ '"' ∧ c ≠ '\\' ∧ 32 ≤ c.toNat

instance (text : List Char) : Decidable (Plain text) := List.decidableBAll _ text

/-- The characters of the text that are read and not yet written. -/
def Pending.held : Pending → Nat
  | .none => 0
  | _ => 1

@[simp] theorem Pending.held_none : Pending.none.held = 0 := rfl

theorem Pending.held_of_ne {pending : Pending} (busy : pending ≠ .none) : pending.held = 1 := by
  cases pending <;> first | rfl | exact absurd rfl busy

/-- A character in the middle of an escape ends it and is written, or goes on with it, or fails. -/
def Step.Escaping (step : Step) : Prop :=
  step = .fail ∨ (∃ after, step = .next [] after ∧ after ≠ .none ∧ after ≠ .escape) ∨ ∃ c, step = .next [c] .none

theorem escaping_codeUnit (high : Option Nat) (code : Nat) : (codeUnit high code).Escaping := by
  unfold codeUnit
  cases high with
  | none =>
    dsimp only
    split_ifs
    · exact .inr (.inl ⟨_, rfl, nofun, nofun⟩)
    · exact .inl rfl
    · exact .inr (.inr ⟨_, rfl⟩)
  | some high =>
    dsimp only
    split_ifs
    · exact .inr (.inr ⟨_, rfl⟩)
    · exact .inl rfl

theorem escaping_step {pending : Pending} (busy : pending ≠ .none) (c : Char) : (step pending c).Escaping := by
  cases pending with
  | none => exact absurd rfl busy
  | escape =>
    rw [step]
    split_ifs
    · exact .inr (.inl ⟨_, rfl, nofun, nofun⟩)
    · cases escaped c with
      | none => exact .inl rfl
      | some d => exact .inr (.inr ⟨d, rfl⟩)
  | hex high digits =>
    rw [step]
    cases hexDigit? c with
    | none => exact .inl rfl
    | some d =>
      dsimp only
      split_ifs
      · exact .inr (.inl ⟨_, rfl, nofun, nofun⟩)
      · exact escaping_codeUnit high _
  | pair high =>
    rw [step]
    split_ifs
    · exact .inr (.inl ⟨_, rfl, nofun, nofun⟩)
    · exact .inl rfl
  | pairEscape high =>
    rw [step]
    split_ifs
    · exact .inr (.inl ⟨_, rfl, nofun, nofun⟩)
    · exact .inl rfl

theorem step_plain {c : Char} (plain : c ≠ '"' ∧ c ≠ '\\' ∧ 32 ≤ c.toNat) : step .none c = .next [c] .none := by
  rw [step, if_neg plain.1, if_neg plain.2.1, if_neg (Nat.not_lt.mpr plain.2.2)]

/-- What a text that is put into a string reads as: it ends the string before its end, or it fails, or it leaves the
    string open. Then no more is written than the text has, and as much only when the text is plain; and the string
    is left in a fresh escape only by a backslash at the end. -/
inductive Outcome (pending : Pending) (text more : List Char) : Prop
  | closed (chars left : List Char) (reads : readString pending (text ++ more) = some (chars, left))
      (short : chars.length < text.length + pending.held)
  | failed (fails : readString pending (text ++ more) = none)
  | opened (chars : List Char) (after : Pending)
      (reads : readString pending (text ++ more) =
        (readString after more).map fun (tail, left) => (chars ++ tail, left))
      (bound : chars.length + after.held ≤ text.length + pending.held)
      (whole : after = .none → chars.length = text.length + pending.held → pending = .none ∧ Plain text)
      (slash : after = .escape → (pending = .escape ∧ text = []) ∨ text.getLast? = some '\\')

section

variable {pending after : Pending} {c : Char} {out rest more : List Char}

theorem Outcome.cons (next : step pending c = .next out after) (written : out.length + after.held ≤ 1 + pending.held)
    (tight : out.length + after.held = 1 + pending.held → after = .none →
      pending = .none ∧ c ≠ '"' ∧ c ≠ '\\' ∧ 32 ≤ c.toNat)
    (fresh : after = .escape → c = '\\') (tail : Outcome after rest more) : Outcome pending (c :: rest) more := by
  have unfolded : readString pending (c :: rest ++ more) =
      (readString after (rest ++ more)).map fun (chars, left) => (out ++ chars, left) := by
    rw [List.cons_append, readString, next]
  cases tail with
  | closed chars left reads short =>
    refine .closed (out ++ chars) left (by rw [unfolded, reads]; rfl) ?_
    rw [List.length_append, List.length_cons]
    omega
  | failed fails => exact .failed (by rw [unfolded, fails]; rfl)
  | opened chars last reads bound whole slash =>
    refine .opened (out ++ chars) last ?_ ?_ ?_ ?_
    · rw [unfolded, reads, Option.map_map]
      congr 1
      funext pair
      simp
    · rw [List.length_append, List.length_cons]
      omega
    · intro ended full
      rw [List.length_append, List.length_cons] at full
      have held : last.held = 0 := by rw [ended, Pending.held_none]
      obtain ⟨idle, plain⟩ := whole ended (by omega)
      obtain ⟨start, own⟩ := tight (by omega) idle
      exact ⟨start, List.forall_mem_cons.mpr ⟨own, plain⟩⟩
    · intro ended
      rcases slash ended with ⟨escape, rfl⟩ | last
      · exact .inr (by rw [fresh escape]; rfl)
      · refine .inr ?_
        cases rest with
        | nil => simp at last
        | cons d rest => rwa [List.getLast?_cons_cons]

end

theorem outcome (pending : Pending) (text more : List Char) : Outcome pending text more := by
  induction text generalizing pending with
  | nil =>
    refine .opened [] pending ?_ (by simp) (fun idle _ => ⟨idle, by simp [Plain]⟩) fun escape => .inl ⟨escape, rfl⟩
    rw [List.nil_append]
    cases readString pending more <;> rfl
  | cons c rest ih =>
    by_cases idle : pending = .none
    · subst idle
      by_cases quote : c = '"'
      · refine .closed [] (rest ++ more) ?_ (by simp)
        rw [List.cons_append, readString, step, if_pos quote]
      by_cases slash : c = '\\'
      · have next : step .none c = .next [] .escape := by rw [step, if_neg quote, if_pos slash]
        exact .cons next (by decide) (fun _ other => nomatch other) (fun _ => slash) (ih _)
      by_cases control : c.toNat < 32
      · refine .failed ?_
        rw [List.cons_append, readString, step, if_neg quote, if_neg slash, if_pos control]
      · have plain := And.intro quote (And.intro slash (Nat.not_lt.mp control))
        exact .cons (step_plain plain) le_rfl (fun _ _ => ⟨rfl, plain⟩) nofun (ih _)
    · rcases escaping_step idle c with fails | ⟨after, next, busy, other⟩ | ⟨d, next⟩
      · refine .failed ?_
        rw [List.cons_append, readString, fails]
      · refine .cons next ?_ (fun _ none => absurd none busy) (fun escape => absurd escape other) (ih _)
        rw [Pending.held_of_ne busy, Pending.held_of_ne idle]
        decide
      · refine .cons next ?_ (fun tight _ => ?_) nofun (ih _)
        · simp [Pending.held_of_ne idle]
        · simp [Pending.held_of_ne idle] at tight

/-- A plain text between quotes reads as it is. -/
theorem readString_plain {text : List Char} (plain : Plain text) (rest : List Char) :
    readString .none (text ++ '"' :: rest) = some (text, rest) := by
  induction text with
  | nil => rfl
  | cons c text ih =>
    obtain ⟨own, plain⟩ := List.forall_mem_cons.mp plain
    rw [List.cons_append, readString, step_plain own]
    dsimp only
    rw [ih plain]
    rfl

/-- A text between quotes reads as it is only when it is plain, where what comes after the quote is no string that ends
    in a backslash. -/
theorem readString_quoted_iff {text rest left : List Char}
    (tails : ∀ chars left, readString .none rest = some (chars, left) → chars.getLast? ≠ some '\\') :
    readString .none (text ++ '"' :: rest) = some (text, left) ↔ Plain text ∧ left = rest := by
  constructor
  · intro read
    cases outcome .none text ('"' :: rest) with
    | closed chars other reads short =>
      obtain ⟨rfl, -⟩ := Prod.mk.inj (Option.some.inj (reads.symm.trans read))
      exact absurd short (by simp)
    | failed fails => exact absurd (fails.symm.trans read) nofun
    | opened chars after reads bound whole slash =>
      rw [read] at reads
      by_cases fresh : after = .escape
      · subst fresh
        have ends : text.getLast? = some '\\' := (slash rfl).resolve_left fun both => nomatch both.1
        have quote : readString .escape ('"' :: rest) =
            (readString .none rest).map fun (tail, left) => ('"' :: tail, left) := rfl
        rw [quote, Option.map_map, eq_comm, Option.map_eq_some_iff] at reads
        obtain ⟨⟨tail, stop⟩, string, same⟩ := reads
        obtain ⟨rfl, rfl⟩ := Prod.mk.inj same
        have last := tails tail stop string
        rw [List.getLast?_append_of_ne_nil _ (List.cons_ne_nil _ tail)] at ends
        cases tail with
        | nil => simp at ends
        | cons d tail => exact absurd (List.getLast?_cons_cons.symm.trans ends) last
      by_cases idle : after = .none
      · subst idle
        obtain ⟨rfl, rfl⟩ := Prod.mk.inj (Option.some.inj reads)
        have full : chars.length = (chars ++ []).length + Pending.none.held := by simp
        exact ⟨(whole rfl full).2, rfl⟩
      · have fails : readString after ('"' :: rest) = none := by
          cases after with
          | none => exact absurd rfl idle
          | escape => exact absurd rfl fresh
          | _ => rfl
        rw [fails] at reads
        exact absurd reads nofun
  · rintro ⟨plain, rfl⟩
    exact readString_plain plain left

/-! ### Decimal numbers -/

/-- A text does not go on with a number. -/
def Ends (rest : List Char) : Prop :=
  ∀ c ∈ rest.head?, c.isDigit = false ∧ c ≠ '.' ∧ c ≠ 'e' ∧ c ≠ 'E'

/-- Digits of a whole number, where a zero stands alone. -/
structure Whole (text : List Char) : Prop where
  digits : ∀ c ∈ text, c.isDigit = true
  nonempty : text ≠ []
  alone : text.head? = some '0' → text = ['0']

theorem digits_append {text rest : List Char} (all : ∀ c ∈ text, c.isDigit = true)
    (ends : ∀ c ∈ rest.head?, c.isDigit = false) : digits (text ++ rest) = (text, rest) := by
  have stops : rest.takeWhile (·.isDigit) = [] ∧ rest.dropWhile (·.isDigit) = rest := by
    cases rest with
    | nil => exact ⟨rfl, rfl⟩
    | cons c rest => simp [ends c rfl]
  rw [digits, List.span_eq_takeWhile_dropWhile, List.takeWhile_append_of_pos all, List.dropWhile_append_of_pos all,
    stops.1, stops.2, List.append_nil]

theorem wholePart_append {text rest : List Char} (whole : Whole text) (ends : ∀ c ∈ rest.head?, c.isDigit = false) :
    wholePart (text ++ rest) = some (text, rest) := by
  have all := digits_append whole.digits ends
  obtain ⟨c, others, rfl⟩ := List.exists_cons_of_ne_nil whole.nonempty
  by_cases zero : c = '0'
  · subst zero
    rw [whole.alone rfl]
    rfl
  · rw [List.cons_append] at all ⊢
    unfold wholePart
    split
    case h_1 same => exact absurd (List.cons.inj same).1 zero
    case h_2 => rw [all]

theorem fractionPart_append {fraction rest : List Char} (all : ∀ c ∈ fraction, c.isDigit = true)
    (some_ : fraction ≠ []) (ends : ∀ c ∈ rest.head?, c.isDigit = false) :
    fractionPart ('.' :: (fraction ++ rest)) = some (some fraction, rest) := by
  obtain ⟨c, others, rfl⟩ := List.exists_cons_of_ne_nil some_
  rw [fractionPart, digits_append all ends]

theorem fractionPart_ends {rest : List Char} (ends : Ends rest) : fractionPart rest = some (none, rest) := by
  unfold fractionPart
  split
  · exact absurd rfl (ends '.' rfl).2.1
  · rfl

theorem exponentPart_ends {rest : List Char} (ends : Ends rest) : exponentPart rest = some (none, rest) := by
  cases rest with
  | nil => rfl
  | cons c rest =>
    obtain ⟨-, -, small, large⟩ := ends c rfl
    simp [exponentPart, small, large]

theorem readUnsigned_parts {negative : Bool} {text whole afterWhole afterFraction rest : List Char}
    {fraction : Option (List Char)} {exponent : Option Int} (first : wholePart text = some (whole, afterWhole))
    (second : fractionPart afterWhole = some (fraction, afterFraction))
    (third : exponentPart afterFraction = some (exponent, rest)) :
    readUnsigned negative text = some (number negative whole fraction exponent, rest) := by
  unfold readUnsigned
  rw [first]
  dsimp only [Option.bind_eq_bind, Option.bind_some]
  rw [second]
  dsimp only [Option.bind_some]
  rw [third]
  rfl

theorem readNumber_whole_append {text : List Char} (whole : Whole text) (rest : List Char) :
    readNumber (text ++ rest) = readUnsigned false (text ++ rest) := by
  obtain ⟨c, others, rfl⟩ := List.exists_cons_of_ne_nil whole.nonempty
  have digit := whole.digits c List.mem_cons_self
  rw [List.cons_append]
  unfold readNumber
  split
  case h_1 same =>
    obtain ⟨rfl, -⟩ := List.cons.inj same
    exact absurd digit (by decide)
  case h_2 => rfl

/-- A whole number reads as itself. -/
theorem readNumber_whole {text rest : List Char} (whole : Whole text) (ends : Ends rest) :
    readNumber (text ++ rest) = some (.posInt (Nat.ofDigitChars 10 text 0), rest) := by
  have stops : ∀ c ∈ rest.head?, c.isDigit = false := fun c first => (ends c first).1
  rw [readNumber_whole_append whole,
    readUnsigned_parts (wholePart_append whole stops) (fractionPart_ends ends) (exponentPart_ends ends)]
  rfl

/-- A number with a point reads as the fraction that it is written as. -/
theorem readNumber_point {text fraction rest : List Char} (whole : Whole text)
    (all : ∀ c ∈ fraction, c.isDigit = true) (some_ : fraction ≠ []) (ends : Ends rest) :
    readNumber (text ++ '.' :: (fraction ++ rest)) = some (number false text (some fraction) none, rest) := by
  have stops : ∀ c ∈ rest.head?, c.isDigit = false := fun c first => (ends c first).1
  have point : ∀ c ∈ ('.' :: (fraction ++ rest)).head?, c.isDigit = false := by
    intro c first
    obtain rfl := Option.some.inj first
    rfl
  rw [readNumber_whole_append whole,
    readUnsigned_parts (wholePart_append whole point) (fractionPart_append all some_ stops) (exponentPart_ends ends)]

/-- The decimal digits of a number have no zero in front. -/
theorem whole_toDigits (n : Nat) : Whole (Nat.toDigits 10 n) where
  digits := fun c inside => Nat.isDigit_of_mem_toDigits (by decide) (by decide) inside
  nonempty := Nat.toDigits_ne_nil
  alone := by
    induction n using Nat.strong_induction_on with
    | _ n ih =>
      intro zero
      rcases Nat.lt_or_ge n 10 with small | large
      · rw [Nat.toDigits_of_lt_base small] at zero ⊢
        rw [Option.some.inj zero]
      · rw [Nat.toDigits_of_base_le (by decide) large, List.head?_append_of_ne_nil _ Nat.toDigits_ne_nil] at zero
        have value : Nat.ofDigitChars 10 (Nat.toDigits 10 (n / 10)) 0 = n / 10 := Nat.ofDigitChars_ten_toDigits
        rw [ih (n / 10) (by omega) zero] at value
        have nothing : Nat.ofDigitChars 10 ['0'] 0 = 0 := rfl
        omega

theorem readNumber_nat (n : Nat) {rest : List Char} (ends : Ends rest) :
    readNumber (Nat.toDigits 10 n ++ rest) = some (.posInt n, rest) := by
  rw [readNumber_whole (whole_toDigits n) ends, Nat.ofDigitChars_ten_toDigits]

/-- A text is the decimal number, with a point or without. -/
def Decimal (text : List Char) (value : ℚ) : Prop :=
  ∃ whole fraction : List Char, Whole whole ∧ (∀ c ∈ fraction, c.isDigit = true) ∧
    text = whole ++ (if fraction = [] then [] else '.' :: fraction) ∧
    value = Nat.ofDigitChars 10 (whole ++ fraction) 0 / 10 ^ fraction.length

/-- A decimal number reads as its value. -/
theorem readNumber_decimal {text : List Char} {value : ℚ} (decimal : Decimal text value) :
    ∃ n : Number, n.toRat = value ∧ ∀ rest, Ends rest → readNumber (text ++ rest) = some (n, rest) := by
  obtain ⟨whole, fraction, standing, all, rfl, rfl⟩ := decimal
  by_cases none : fraction = []
  · subst none
    refine ⟨.posInt (Nat.ofDigitChars 10 whole 0), by simp [Number.toRat], fun rest ends => ?_⟩
    rw [if_pos rfl, List.append_nil, readNumber_whole standing ends]
  · refine ⟨number false whole (some fraction) Option.none, by simp [number, Number.toRat], fun rest ends => ?_⟩
    rw [if_neg none, List.append_assoc, List.cons_append, readNumber_point standing all none ends]

theorem Whole.first {text : List Char} (whole : Whole text) : ∃ c others, text = c :: others ∧ c.isDigit = true := by
  obtain ⟨c, others, rfl⟩ := List.exists_cons_of_ne_nil whole.nonempty
  exact ⟨c, others, rfl, whole.digits c List.mem_cons_self⟩

theorem Decimal.first {text : List Char} {value : ℚ} (decimal : Decimal text value) :
    ∃ c others, text = c :: others ∧ c.isDigit = true := by
  obtain ⟨whole, fraction, standing, -, rfl, -⟩ := decimal
  obtain ⟨c, others, rfl, digit⟩ := standing.first
  exact ⟨c, _, List.cons_append, digit⟩

/-! ### Members -/

theorem readValue_string (fuel : Nat) (text : List Char) :
    readValue (fuel + 1) ('"' :: text) =
      (readString .none text).map fun (chars, rest) => (.string (String.ofList chars), rest) := by
  rw [readValue]

theorem readValue_number {text : List Char} (fuel : Nat) (first : ∃ c rest, text = c :: rest ∧ c.isDigit = true) :
    readValue (fuel + 1) text = (readNumber text).map fun (number, rest) => (.number number, rest) := by
  obtain ⟨c, rest, rfl, digit⟩ := first
  unfold readValue
  split
  case h_7 => rfl
  all_goals
    rename_i same
    obtain ⟨rfl, -⟩ := List.cons.inj same
    exact absurd digit (by decide)

/-- What follows a member of an object. -/
def readMore (fuel : Nat) (text : List Char) : Option (List (String × Value) × List Char) :=
  match skip text with
  | ',' :: rest => readFields fuel (skip rest)
  | '}' :: rest => some ([], rest)
  | _ => none

theorem readFields_member {name : List Char} (plain : Plain name) (fuel : Nat) {text : List Char}
    (solid : skip text = text) :
    readFields (fuel + 1) ('"' :: (name ++ '"' :: ':' :: text)) =
      (readValue fuel text).bind fun (value, rest) =>
        (readMore fuel rest).map fun (fields, rest) => ((String.ofList name, value) :: fields, rest) := by
  have colon : skip (':' :: text) = ':' :: text := rfl
  rw [readFields, readString_plain plain]
  dsimp only [Option.bind_some]
  rw [colon]
  change (readValue fuel (skip text)).bind _ = _
  rw [solid]
  cases readValue fuel text with
  | none => rfl
  | some read =>
    obtain ⟨value, rest⟩ := read
    dsimp only [Option.bind_some]
    unfold readMore
    split <;> rfl

/-- A member that has a text between quotes as it is reads back exactly when the text is plain. -/
theorem readFields_string_iff {name text rest left : List Char} {fields : List (String × Value)} (plain : Plain name)
    (tails : ∀ chars left, readString .none rest = some (chars, left) → chars.getLast? ≠ some '\\') (fuel : Nat) :
    readFields (fuel + 2) ('"' :: (name ++ '"' :: ':' :: '"' :: (text ++ '"' :: rest))) =
        some ((String.ofList name, .string (String.ofList text)) :: fields, left) ↔
      Plain text ∧ readMore (fuel + 1) rest = some (fields, left) := by
  rw [readFields_member plain (fuel + 1) rfl, readValue_string]
  constructor
  · intro read
    obtain ⟨⟨value, after⟩, string, more⟩ := Option.bind_eq_some_iff.mp read
    obtain ⟨⟨chars, stop⟩, quoted, same⟩ := Option.map_eq_some_iff.mp string
    obtain ⟨rfl, rfl⟩ := Prod.mk.inj same
    obtain ⟨⟨others, final⟩, following, members⟩ := Option.map_eq_some_iff.mp more
    obtain ⟨both, rfl⟩ := Prod.mk.inj members
    obtain ⟨head, rfl⟩ := List.cons.inj both
    obtain rfl : chars = text := String.ofList_inj.mp (Value.string.inj (Prod.mk.inj head).2)
    obtain ⟨own, rfl⟩ := (readString_quoted_iff tails).mp quoted
    exact ⟨own, following⟩
  · rintro ⟨own, following⟩
    rw [readString_plain own]
    dsimp only [Option.map_some, Option.bind_some]
    rw [following]
    rfl

/-- A member that has a number reads as the number. -/
theorem readFields_number_iff {name text rest left : List Char} {fields : List (String × Value)} (plain : Plain name)
    {own n : Number} (digit : ∃ c others, text = c :: others ∧ c.isDigit = true)
    (reads : readNumber (text ++ rest) = some (own, rest)) (fuel : Nat) :
    readFields (fuel + 2) ('"' :: (name ++ '"' :: ':' :: (text ++ rest))) =
        some ((String.ofList name, .number n) :: fields, left) ↔
      n = own ∧ readMore (fuel + 1) rest = some (fields, left) := by
  obtain ⟨c, others, rfl, digit⟩ := digit
  have solid : skip (c :: others ++ rest) = c :: others ++ rest := by
    have apart : c ≠ ' ' ∧ c ≠ '\t' ∧ c ≠ '\n' ∧ c ≠ '\r' := by
      refine ⟨?_, ?_, ?_, ?_⟩ <;> rintro rfl <;> exact absurd digit (by decide)
    have shown : isSpace c = false := by simpa [isSpace, and_assoc] using apart
    rw [skip, List.cons_append, List.dropWhile_cons_of_neg (by simp [shown])]
  rw [readFields_member plain (fuel + 1) solid, readValue_number fuel ⟨c, others ++ rest, List.cons_append, digit⟩, reads]
  dsimp only [Option.map_some, Option.bind_some]
  constructor
  · intro read
    obtain ⟨⟨others, final⟩, following, members⟩ := Option.map_eq_some_iff.mp read
    obtain ⟨both, rfl⟩ := Prod.mk.inj members
    obtain ⟨head, rfl⟩ := List.cons.inj both
    exact ⟨(Value.number.inj (Prod.mk.inj head).2).symm, following⟩
  · rintro ⟨rfl, following⟩
    rw [following]
    rfl

theorem readMore_brace (fuel : Nat) (text : List Char) : readMore fuel ('}' :: text) = some ([], text) := rfl

/-- A text with one object is read by its members. -/
theorem read_object_iff {text : String} {rest : List Char} (braced : text.toList = '{' :: '"' :: rest)
    (fields : List (String × Value)) :
    read text = some (.object fields) ↔
      ∃ left, readFields text.length ('"' :: rest) = some (fields, left) ∧ skip left = [] := by
  have object : readValue (text.length + 1) (skip text.toList) =
      (readFields text.length ('"' :: rest)).map fun (fields, rest) => (.object fields, rest) := by
    rw [braced]
    rfl
  rw [read, object]
  cases readFields text.length ('"' :: rest) with
  | none => simp
  | some found =>
    obtain ⟨own, left⟩ := found
    dsimp only [Option.map_some]
    by_cases ended : skip left = []
    · simp [ended]
    · simp [ended]

end Json
