import Mathlib.Algebra.GroupWithZero.Nat
import Mathlib.Data.List.Basic
import Mathlib.Data.List.DropRight

/-!
The parts of the source language's text library that the gateway's logic rests on: white space, replacing and
finding a pattern, the quoted form that error texts show, and the reading of bytes as text.
-/

namespace SmallGateway.Text

/-- The characters of the Unicode property `White_Space`. -/
def isWhitespace (c : Char) : Bool :=
  (9 ≤ c.toNat && c.toNat ≤ 13) || (0x2000 ≤ c.toNat && c.toNat ≤ 0x200A) ||
    c.toNat ∈ [0x20, 0x85, 0xA0, 0x1680, 0x2028, 0x2029, 0x202F, 0x205F, 0x3000]

/-- Nothing is left after trimming. -/
def isBlank (text : String) : Bool := text.toList.all isWhitespace

/-- `pattern` replaced everywhere, from the left, where `skip` characters belong to an occurrence already
    replaced. -/
def replaceFrom (pattern replacement : List Char) : Nat → List Char → List Char
  | _, [] => []
  | skip + 1, _ :: rest => replaceFrom pattern replacement skip rest
  | 0, c :: rest =>
    if pattern.isPrefixOf (c :: rest) then
      replacement ++ replaceFrom pattern replacement (pattern.length - 1) rest
    else c :: replaceFrom pattern replacement 0 rest

/-- `str::replace` for a pattern that is not empty. -/
def replaceAll (text pattern replacement : String) : String :=
  String.ofList (replaceFrom pattern.toList replacement.toList 0 text.toList)

/-- What follows the first occurrence of a pattern. -/
def after? (pattern : List Char) : List Char → Option (List Char)
  | [] => if pattern.isEmpty then some [] else none
  | c :: rest => if pattern.isPrefixOf (c :: rest) then some ((c :: rest).drop pattern.length) else after? pattern rest

/-- What is left without the white space around it. -/
def trim (text : String) : String :=
  String.ofList ((text.toList.dropWhile isWhitespace).reverse.dropWhile isWhitespace).reverse

/-- What stands before the first separator, and what stands after it. -/
def splitOnce (separator : Char) : List Char → Option (List Char × List Char)
  | [] => none
  | c :: rest =>
    if c = separator then some ([], rest)
    else (splitOnce separator rest).map fun (before, after) => (c :: before, after)

/-- What stands before the last separator, and what stands after it. -/
def rsplitOnce (separator : Char) (text : List Char) : Option (List Char × List Char) :=
  (splitOnce separator text.reverse).map fun (after, before) => (before.reverse, after.reverse)

/-- `str::parse` for the unsigned numbers of 64 bits. -/
def parseU64 (text : String) : Option Nat :=
  let digits := if text.toList.head? = some '+' then text.toList.drop 1 else text.toList
  if digits ≠ [] ∧ digits.all Char.isDigit then
    let value := digits.foldl (fun value c => value * 10 + (c.toNat - '0'.toNat)) 0
    if value < 2 ^ 64 then some value else none
  else none

/-- The `{:?}` form of a text, for printable characters. -/
def debugStr (text : String) : String :=
  let escape (c : Char) : List Char :=
    if c = '"' then ['\\', '"']
    else if c = '\\' then ['\\', '\\']
    else if c = '\n' then ['\\', 'n']
    else if c = '\r' then ['\\', 'r']
    else if c = '\t' then ['\\', 't']
    else [c]
  String.ofList ('"' :: text.toList.flatMap escape ++ ['"'])

/-- The `{:?}` form of a character, for printable characters. -/
def debugChar (c : Char) : String :=
  let escaped :=
    if c.toNat = 39 then "\\'"
    else if c = '\\' then "\\\\"
    else if c = '\n' then "\\n"
    else if c = '\r' then "\\r"
    else if c = '\t' then "\\t"
    else String.singleton c
  "'" ++ escaped ++ "'"

/-! ### Bytes as text -/

/-- The bounds of a continuation byte of UTF-8. -/
def continuation : Nat × Nat := (0x80, 0xBF)

/-- What the first byte of a character contributes to its value, and the bounds of the bytes that follow; nothing
    when no character starts with it. -/
def utf8Lead (byte : Nat) : Option (Nat × List (Nat × Nat)) :=
  if byte < 0x80 then some (byte, [])
  else if 0xC2 ≤ byte ∧ byte ≤ 0xDF then some (byte % 32, [continuation])
  else if byte = 0xE0 then some (byte % 16, [(0xA0, 0xBF), continuation])
  else if byte = 0xED then some (byte % 16, [(0x80, 0x9F), continuation])
  else if 0xE1 ≤ byte ∧ byte ≤ 0xEF then some (byte % 16, [continuation, continuation])
  else if byte = 0xF0 then some (byte % 8, [(0x90, 0xBF), continuation, continuation])
  else if 0xF1 ≤ byte ∧ byte ≤ 0xF3 then some (byte % 8, [continuation, continuation, continuation])
  else if byte = 0xF4 then some (byte % 8, [(0x80, 0x8F), continuation, continuation])
  else none

/-- The value of a character whose bytes are to lie within the bounds, nothing at the first one that does not,
    and the bytes that are left. -/
def utf8Rest (value : Nat) : List (Nat × Nat) → List UInt8 → Option Nat × List UInt8
  | [], bytes => (some value, bytes)
  | _ :: _, [] => (none, [])
  | (low, high) :: bounds, byte :: bytes =>
    if low ≤ byte.toNat ∧ byte.toNat ≤ high then utf8Rest (value * 64 + byte.toNat % 64) bounds bytes
    else (none, byte :: bytes)

/-- The characters of the bytes, where a part that is no character reads as the replacement character. -/
def lossyChars : Nat → List UInt8 → List Char
  | 0, _ => []
  | _, [] => []
  | fuel + 1, byte :: bytes =>
    match utf8Lead byte.toNat with
    | none => '\uFFFD' :: lossyChars fuel bytes
    | some (value, bounds) =>
      let (char, left) := utf8Rest value bounds bytes
      (char.map Char.ofNat).getD '\uFFFD' :: lossyChars fuel left

/-- `String::from_utf8_lossy`. -/
def fromUtf8Lossy (bytes : List UInt8) : String := String.ofList (lossyChars bytes.length bytes)

example : fromUtf8Lossy [0x61, 0xC3, 0xA9, 0xE2, 0x82, 0x62] = "aé\uFFFDb" := by decide

/-- The bytes of a character of this value. -/
def utf8Encode (n : Nat) : List UInt8 :=
  if n < 0x80 then [.ofNat n]
  else if n < 0x800 then [.ofNat (0xC0 + n / 64), .ofNat (0x80 + n % 64)]
  else if n < 0x10000 then [.ofNat (0xE0 + n / 4096), .ofNat (0x80 + n / 64 % 64), .ofNat (0x80 + n % 64)]
  else
    [.ofNat (0xF0 + n / 262144), .ofNat (0x80 + n / 4096 % 64), .ofNat (0x80 + n / 64 % 64), .ofNat (0x80 + n % 64)]

theorem utf8Rest_cons {value low high found : Nat} {bounds : List (Nat × Nat)} {bytes left : List UInt8}
    (read : utf8Rest value ((low, high) :: bounds) bytes = (some found, left)) :
    ∃ byte rest, bytes = byte :: rest ∧ low ≤ byte.toNat ∧ byte.toNat ≤ high ∧
      utf8Rest (value * 64 + byte.toNat % 64) bounds rest = (some found, left) := by
  cases bytes with
  | nil => cases read
  | cons byte rest =>
    rw [utf8Rest] at read
    split at read
    next within => exact ⟨byte, rest, rfl, within.1, within.2, read⟩
    next => cases read

theorem eq_ofNat {byte : UInt8} {n : Nat} (same : byte.toNat = n) : byte = .ofNat n := by
  rw [← same, UInt8.ofNat_toNat]

/-- A character of one, two, three or four bytes is written with them. -/
theorem utf8Encode_two (first second : UInt8) {n : Nat} (lead : first.toNat = 0xC0 + n / 64)
    (rest : second.toNat = 0x80 + n % 64) (from_ : 0x80 ≤ n) (below : n < 0x800) : utf8Encode n = [first, second] := by
  rw [utf8Encode, if_neg (by omega), if_pos below, ← eq_ofNat lead, ← eq_ofNat rest]

theorem utf8Encode_three (first second third : UInt8) {n : Nat} (lead : first.toNat = 0xE0 + n / 4096)
    (middle : second.toNat = 0x80 + n / 64 % 64) (rest : third.toNat = 0x80 + n % 64) (from_ : 0x800 ≤ n)
    (below : n < 0x10000) : utf8Encode n = [first, second, third] := by
  rw [utf8Encode, if_neg (by omega), if_neg (by omega), if_pos below, ← eq_ofNat lead, ← eq_ofNat middle,
    ← eq_ofNat rest]

theorem utf8Encode_four (first second third fourth : UInt8) {n : Nat} (lead : first.toNat = 0xF0 + n / 262144)
    (one : second.toNat = 0x80 + n / 4096 % 64) (two : third.toNat = 0x80 + n / 64 % 64)
    (rest : fourth.toNat = 0x80 + n % 64) (from_ : 0x10000 ≤ n) : utf8Encode n = [first, second, third, fourth] := by
  rw [utf8Encode, if_neg (by omega), if_neg (by omega), if_neg (by omega), ← eq_ofNat lead, ← eq_ofNat one,
    ← eq_ofNat two, ← eq_ofNat rest]

theorem utf8Rest_one {value low high found : Nat} {bytes left : List UInt8}
    (read : utf8Rest value [(low, high)] bytes = (some found, left)) :
    ∃ second, bytes = second :: left ∧ low ≤ second.toNat ∧ second.toNat ≤ high ∧
      found = value * 64 + second.toNat % 64 := by
  obtain ⟨second, rest, rfl, above, below, read⟩ := utf8Rest_cons read
  obtain ⟨same, rfl⟩ := Prod.mk.inj read
  exact ⟨second, rfl, above, below, (Option.some.inj same).symm⟩

theorem utf8Rest_two {value low high found : Nat} {bytes left : List UInt8}
    (read : utf8Rest value [(low, high), continuation] bytes = (some found, left)) :
    ∃ second third, bytes = second :: third :: left ∧ low ≤ second.toNat ∧ second.toNat ≤ high ∧
      0x80 ≤ third.toNat ∧ third.toNat ≤ 0xBF ∧ found = (value * 64 + second.toNat % 64) * 64 + third.toNat % 64 := by
  obtain ⟨second, rest, rfl, above, below, read⟩ := utf8Rest_cons read
  obtain ⟨third, rfl, aboveToo, belowToo, same⟩ := utf8Rest_one read
  exact ⟨second, third, rfl, above, below, aboveToo, belowToo, same⟩

theorem utf8Rest_three {value low high found : Nat} {bytes left : List UInt8}
    (read : utf8Rest value [(low, high), continuation, continuation] bytes = (some found, left)) :
    ∃ second third fourth, bytes = second :: third :: fourth :: left ∧ low ≤ second.toNat ∧ second.toNat ≤ high ∧
      0x80 ≤ third.toNat ∧ third.toNat ≤ 0xBF ∧ 0x80 ≤ fourth.toNat ∧ fourth.toNat ≤ 0xBF ∧
        found = ((value * 64 + second.toNat % 64) * 64 + third.toNat % 64) * 64 + fourth.toNat % 64 := by
  obtain ⟨second, rest, rfl, above, below, read⟩ := utf8Rest_cons read
  obtain ⟨third, fourth, rfl, aboveToo, belowToo, aboveLast, belowLast, same⟩ := utf8Rest_two read
  exact ⟨second, third, fourth, rfl, above, below, aboveToo, belowToo, aboveLast, belowLast, same⟩

/-- A character that is read has only the bytes it is written with. -/
theorem utf8Encode_of_read {byte : UInt8} {bytes left : List UInt8} {value found : Nat} {bounds : List (Nat × Nat)}
    (lead : utf8Lead byte.toNat = some (value, bounds)) (read : utf8Rest value bounds bytes = (some found, left)) :
    byte :: bytes = utf8Encode found ++ left ∧ found.isValidChar := by
  have one (small : byte.toNat < 0x80) (same : found = byte.toNat) (rest : bytes = left) :
      byte :: bytes = utf8Encode found ++ left ∧ found.isValidChar := by
    subst same rest
    rw [utf8Encode, if_pos small, UInt8.ofNat_toNat]
    exact ⟨rfl, .inl (by omega)⟩
  have three {low high : Nat} (least : 0xE0 ≤ byte.toNat) (most : byte.toNat ≤ 0xEF)
      (bound : 0x80 ≤ low ∧ high ≤ 0xBF) (canonical : byte.toNat = 0xE0 → 0xA0 ≤ low)
      (noSurrogate : byte.toNat = 0xED → high ≤ 0x9F)
      (read : utf8Rest (byte.toNat % 16) [(low, high), continuation] bytes = (some found, left)) :
      byte :: bytes = utf8Encode found ++ left ∧ found.isValidChar := by
    obtain ⟨second, third, rfl, above, below, aboveToo, belowToo, same⟩ := utf8Rest_two read
    rw [utf8Encode_three byte second third (by omega) (by omega) (by omega)
      (by omega) (by omega)]
    refine ⟨rfl, ?_⟩
    unfold Nat.isValidChar
    omega
  have four {low high : Nat} (least : 0xF0 ≤ byte.toNat) (most : byte.toNat ≤ 0xF4)
      (bound : 0x80 ≤ low ∧ high ≤ 0xBF) (canonical : byte.toNat = 0xF0 → 0x90 ≤ low)
      (inside : byte.toNat = 0xF4 → high ≤ 0x8F)
      (read : utf8Rest (byte.toNat % 8) [(low, high), continuation, continuation] bytes = (some found, left)) :
      byte :: bytes = utf8Encode found ++ left ∧ found.isValidChar := by
    obtain ⟨second, third, fourth, rfl, above, below, aboveToo, belowToo, aboveLast, belowLast, same⟩ :=
      utf8Rest_three read
    rw [utf8Encode_four byte second third fourth (by omega) (by omega)
      (by omega) (by omega) (by omega)]
    refine ⟨rfl, ?_⟩
    unfold Nat.isValidChar
    omega
  unfold utf8Lead at lead
  split at lead
  next small =>
    obtain ⟨rfl, rfl⟩ := Prod.mk.inj (Option.some.inj lead)
    obtain ⟨same, rest⟩ := Prod.mk.inj read
    exact one small (Option.some.inj same).symm rest
  split at lead
  next =>
    obtain ⟨rfl, rfl⟩ := Prod.mk.inj (Option.some.inj lead)
    obtain ⟨second, rfl, above, below, same⟩ := utf8Rest_one read
    rw [utf8Encode_two byte second (by omega) (by omega) (by omega) (by omega)]
    exact ⟨rfl, .inl (by omega)⟩
  split at lead
  next =>
    obtain ⟨rfl, rfl⟩ := Prod.mk.inj (Option.some.inj lead)
    exact three (by omega) (by omega) (by omega) (by omega) (by omega) read
  split at lead
  next =>
    obtain ⟨rfl, rfl⟩ := Prod.mk.inj (Option.some.inj lead)
    exact three (by omega) (by omega) (by omega) (by omega) (by omega) read
  split at lead
  next =>
    obtain ⟨rfl, rfl⟩ := Prod.mk.inj (Option.some.inj lead)
    exact three (by omega) (by omega) (by decide) (by omega) (by omega) read
  split at lead
  next =>
    obtain ⟨rfl, rfl⟩ := Prod.mk.inj (Option.some.inj lead)
    exact four (by omega) (by omega) (by omega) (by omega) (by omega) read
  split at lead
  next =>
    obtain ⟨rfl, rfl⟩ := Prod.mk.inj (Option.some.inj lead)
    exact four (by omega) (by omega) (by decide) (by omega) (by omega) read
  split at lead
  next =>
    obtain ⟨rfl, rfl⟩ := Prod.mk.inj (Option.some.inj lead)
    exact four (by omega) (by omega) (by omega) (by omega) (by omega) read
  next => cases lead

/-- Bytes that read without a replacement character are those that the characters are written with. -/
theorem lossyChars_encode {fuel : Nat} {bytes : List UInt8} (enough : bytes.length ≤ fuel)
    (clean : '\uFFFD' ∉ lossyChars fuel bytes) :
    bytes = (lossyChars fuel bytes).flatMap fun c => utf8Encode c.toNat := by
  induction fuel generalizing bytes with
  | zero =>
    rw [List.length_eq_zero_iff.mp (Nat.le_zero.mp enough)]
    rfl
  | succ fuel ih =>
    cases bytes with
    | nil => rfl
    | cons byte bytes =>
      rw [lossyChars] at clean ⊢
      split at clean
      next => exact absurd List.mem_cons_self clean
      next value bounds lead =>
        rcases read : utf8Rest value bounds bytes with ⟨_ | found, left⟩
        · rw [read] at clean
          exact absurd List.mem_cons_self clean
        · obtain ⟨written, valid⟩ := utf8Encode_of_read lead read
          have shorter : left.length ≤ fuel := by
            have lengths := congrArg List.length written
            have some_ : 0 < (utf8Encode found).length := by
              unfold utf8Encode
              split_ifs <;> simp
            rw [List.length_append] at lengths
            simp only [List.length_cons] at lengths enough
            omega
          have readAs : (Char.ofNat found).toNat = found := by rw [Char.ofNat, dif_pos valid]; rfl
          rw [read] at clean
          simp only [Option.map_some, Option.getD_some, List.flatMap_cons, readAs]
          rw [← ih shorter (List.not_mem_of_not_mem_cons clean)]
          exact written

/-- The bytes that a text is written with. -/
def utf8Bytes (text : String) : List UInt8 := text.toList.flatMap fun c => utf8Encode c.toNat

/-- Bytes that read without a replacement character are had back from the text. -/
theorem utf8Bytes_fromUtf8Lossy {bytes : List UInt8} (clean : '\uFFFD' ∉ (fromUtf8Lossy bytes).toList) :
    utf8Bytes (fromUtf8Lossy bytes) = bytes := by
  rw [fromUtf8Lossy, String.toList_ofList] at clean
  rw [utf8Bytes, fromUtf8Lossy, String.toList_ofList, ← lossyChars_encode le_rfl clean]

/-- Where the first byte stands that belongs to no character, and how many bytes are wrong there; no number when the
    bytes break off. -/
def utf8Error : Nat → Nat → List UInt8 → Option (Nat × Option Nat)
  | 0, _, _ => none
  | _, _, [] => none
  | fuel + 1, index, byte :: bytes =>
    match utf8Lead byte.toNat with
    | none => some (index, some 1)
    | some (value, bounds) =>
      match utf8Rest value bounds bytes with
      | (some _, left) => utf8Error fuel (index + 1 + bounds.length) left
      | (none, []) => some (index, none)
      | (none, left) => some (index, some (1 + bytes.length - left.length))

/-- What `str::from_utf8` says about bytes that are no text. -/
def utf8ErrorText (bytes : List UInt8) : String :=
  match utf8Error bytes.length 0 bytes with
  | some (index, some length) =>
    "invalid utf-8 sequence of " ++ toString length ++ " bytes from index " ++ toString index
  | some (index, none) => "incomplete utf-8 byte sequence from index " ++ toString index
  | none => ""

/-- A lowercase hexadecimal digit. -/
def hexDigit (n : Nat) : Char := Char.ofNat (if n < 10 then 48 + n else 87 + n)

/-- The bytes in lowercase hexadecimal digits. -/
def hex (bytes : List UInt8) : String :=
  String.ofList (bytes.flatMap fun byte => [hexDigit (byte.toNat / 16), hexDigit (byte.toNat % 16)])

/-! ### Slices -/

/-- `&text[..n]`, counted in bytes: nothing where the source panics, past the end or inside a character. -/
def sliceTo : Nat → List Char → Option (List Char)
  | 0, _ => some []
  | _ + 1, [] => none
  | n + 1, c :: rest =>
    if c.utf8Size ≤ n + 1 then (sliceTo (n + 1 - c.utf8Size) rest).map (c :: ·) else none

/-- The number of bytes. -/
def byteLen (text : List Char) : Nat := (text.map Char.utf8Size).sum

/-- The first twelve bytes of a hash, or all of a shorter one; nothing where the source panics. -/
def short (hash : String) : Option String :=
  (sliceTo (min 12 (byteLen hash.toList)) hash.toList).map String.ofList

/-- A text of characters that take one byte each can be cut anywhere. -/
theorem sliceTo_ascii {text : List Char} (ascii : ∀ c ∈ text, c.utf8Size = 1) {n : Nat} (inside : n ≤ text.length) :
    (sliceTo n text).isSome = true := by
  induction text generalizing n with
  | nil =>
    obtain rfl := Nat.le_zero.mp inside
    rfl
  | cons c rest ih =>
    cases n with
    | zero => rfl
    | succ n =>
      have one := ascii c List.mem_cons_self
      have cut := ih (fun d listed => ascii d (List.mem_cons_of_mem _ listed)) (Nat.le_of_succ_le_succ inside)
      rw [sliceTo, if_pos (by omega), one, Nat.add_sub_cancel, Option.isSome_map]
      exact cut

theorem byteLen_ascii {text : List Char} (ascii : ∀ c ∈ text, c.utf8Size = 1) : byteLen text = text.length := by
  induction text with
  | nil => rfl
  | cons c rest ih =>
    have tail := ih fun d listed => ascii d (List.mem_cons_of_mem _ listed)
    rw [byteLen] at tail ⊢
    rw [List.map_cons, List.sum_cons, tail, ascii c List.mem_cons_self, List.length_cons, Nat.add_comm]

theorem short_isSome_of_ascii {hash : String} (ascii : ∀ c ∈ hash.toList, c.utf8Size = 1) :
    (short hash).isSome = true := by
  rw [short, Option.isSome_map]
  exact sliceTo_ascii ascii ((Nat.min_le_right _ _).trans_eq (byteLen_ascii ascii))

/-- What holds of every digit holds of every character. -/
theorem hex_forall {p : Char → Prop} (digit : ∀ n < 16, p (hexDigit n)) (bytes : List UInt8) :
    ∀ c ∈ (hex bytes).toList, p c := by
  intro c listed
  rw [hex, String.toList_ofList, List.mem_flatMap] at listed
  obtain ⟨byte, -, written⟩ := listed
  have bound := byte.toNat_lt
  rcases List.mem_pair.mp written with rfl | rfl
  · exact digit _ (by omega)
  · exact digit _ (by omega)

theorem hex_ascii (bytes : List UInt8) : ∀ c ∈ (hex bytes).toList, c.utf8Size = 1 := hex_forall (by decide) bytes

theorem newline_not_mem_hex (bytes : List UInt8) : '\n' ∉ (hex bytes).toList :=
  fun listed => hex_forall (p := (· ≠ '\n')) (by decide) bytes _ listed rfl

/-- The first digits, two for each of the first bytes. -/
theorem hex_take (n : Nat) (bytes : List UInt8) : (hex bytes).toList.take (2 * n) = (hex (bytes.take n)).toList := by
  rw [hex, hex, String.toList_ofList, String.toList_ofList]
  induction n generalizing bytes with
  | zero => simp
  | succ n ih =>
    cases bytes with
    | nil => simp
    | cons byte rest =>
      have digits : 2 * (n + 1) = 2 * n + 1 + 1 := by omega
      rw [List.take_succ_cons, List.flatMap_cons, List.flatMap_cons, digits, List.cons_append, List.cons_append,
        List.take_succ_cons, List.take_succ_cons, List.nil_append, ih]
      rfl

theorem hex_injective {bytes others : List UInt8} (same : hex bytes = hex others) : bytes = others := by
  have digits : ∀ m < 16, ∀ n < 16, hexDigit m = hexDigit n → m = n := by decide
  rw [hex, hex, String.ofList_inj] at same
  induction bytes generalizing others with
  | nil =>
    cases others with
    | nil => rfl
    | cons other rest => cases same
  | cons byte rest ih =>
    cases others with
    | nil => cases same
    | cons other restToo =>
      simp only [List.flatMap_cons, List.cons_append, List.nil_append, List.cons.injEq] at same
      have bound := byte.toNat_lt
      have boundToo := other.toNat_lt
      have high := digits _ (by omega) _ (by omega) same.1
      have low := digits _ (by omega) _ (by omega) same.2.1
      rw [UInt8.toNat_inj.mp (by omega : byte.toNat = other.toNat), ih same.2.2]

theorem splitOnce_append {separator : Char} {before : List Char} (first : separator ∉ before) (after : List Char) :
    splitOnce separator (before ++ separator :: after) = some (before, after) := by
  induction before with
  | nil => simp [splitOnce]
  | cons c rest ih =>
    rw [List.cons_append, splitOnce, if_neg (Ne.symm (List.ne_of_not_mem_cons first)),
      ih (List.not_mem_of_not_mem_cons first), Option.map_some]

theorem splitOnce_spec {separator : Char} {text before after : List Char}
    (split : splitOnce separator text = some (before, after)) :
    text = before ++ separator :: after ∧ separator ∉ before := by
  induction text generalizing before with
  | nil => cases split
  | cons c rest ih =>
    rw [splitOnce] at split
    split at split
    · rename_i same
      cases split
      exact ⟨by rw [same, List.nil_append], List.not_mem_nil⟩
    · rename_i differs
      obtain ⟨⟨prior, later⟩, found, same⟩ := Option.map_eq_some_iff.mp split
      cases same
      obtain ⟨parts, first⟩ := ih found
      exact ⟨by rw [parts, List.cons_append], List.not_mem_cons_of_ne_of_not_mem (Ne.symm differs) first⟩

theorem rsplitOnce_append {separator : Char} (before : List Char) {after : List Char} (last : separator ∉ after) :
    rsplitOnce separator (before ++ separator :: after) = some (before, after) := by
  have reversed : (before ++ separator :: after).reverse = after.reverse ++ separator :: before.reverse := by simp
  rw [rsplitOnce, reversed, splitOnce_append (mt List.mem_reverse.mp last)]
  simp

theorem rsplitOnce_spec {separator : Char} {text before after : List Char}
    (split : rsplitOnce separator text = some (before, after)) : separator ∉ after := by
  obtain ⟨⟨later, prior⟩, found, same⟩ := Option.map_eq_some_iff.mp split
  cases same
  exact mt List.mem_reverse.mp (splitOnce_spec found).2

theorem trim_subset {text : String} {c : Char} (inside : c ∈ (trim text).toList) : c ∈ text.toList := by
  rw [trim, String.toList_ofList, List.mem_reverse] at inside
  have kept := (List.dropWhile_sublist isWhitespace).mem inside
  exact (List.dropWhile_sublist isWhitespace).mem (List.mem_reverse.mp kept)

theorem trim_trim (text : String) : trim (trim text) = trim text := by
  have twice (l : List Char) : trim (String.ofList l) =
      String.ofList ((l.dropWhile isWhitespace).rdropWhile isWhitespace) := by
    rw [trim, String.toList_ofList, List.rdropWhile]
  have once := twice text.toList
  rw [String.ofList_toList] at once
  -- What is left has no white space at its front, as a prefix of what had none.
  have front : (((text.toList.dropWhile isWhitespace).rdropWhile isWhitespace).dropWhile isWhitespace) =
      (text.toList.dropWhile isWhitespace).rdropWhile isWhitespace := by
    rw [List.dropWhile_eq_self_iff]
    intro nonempty
    have left := List.rdropWhile_prefix isWhitespace (l := text.toList.dropWhile isWhitespace)
    rw [left.getElem nonempty]
    exact List.dropWhile_get_zero_not isWhitespace text.toList (nonempty.trans_le left.length_le)
  rw [once, twice, front, List.rdropWhile_idempotent]

/-! ### Replacing and finding -/

section

variable {pattern replacement : List Char}

theorem replaceFrom_skip (n : Nat) (chars : List Char) :
    replaceFrom pattern replacement n chars = replaceFrom pattern replacement 0 (chars.drop n) := by
  induction chars generalizing n with
  | nil => simp [replaceFrom]
  | cons c rest ih =>
    cases n with
    | zero => rfl
    | succ n => rw [replaceFrom, ih, List.drop_succ_cons]

/-- An occurrence at the start is replaced, and the search goes on behind it. -/
theorem replaceFrom_pattern (filled : pattern ≠ []) (rest : List Char) :
    replaceFrom pattern replacement 0 (pattern ++ rest) = replacement ++ replaceFrom pattern replacement 0 rest := by
  obtain ⟨c, more, rfl⟩ := List.exists_cons_of_ne_nil filled
  have here : (c :: more).isPrefixOf (c :: (more ++ rest)) = true :=
    List.isPrefixOf_iff_prefix.mpr (List.prefix_append (c :: more) rest)
  rw [List.cons_append, replaceFrom, if_pos here, replaceFrom_skip]
  simp

/-- What no occurrence starts with is passed. -/
theorem replaceFrom_pass {c : Char} {rest : List Char} (none_ : ¬ pattern <+: c :: rest) :
    replaceFrom pattern replacement 0 (c :: rest) = c :: replaceFrom pattern replacement 0 rest := by
  rw [replaceFrom, if_neg]
  rwa [List.isPrefixOf_iff_prefix]

theorem after?_eq_none_iff (filled : pattern ≠ []) (text : List Char) :
    after? pattern text = none ↔ ¬ pattern <:+: text := by
  induction text with
  | nil => simp [after?, filled]
  | cons c rest ih =>
    rw [after?, List.infix_cons_iff]
    by_cases here : pattern <+: c :: rest
    · simp [List.isPrefixOf_iff_prefix.mpr here, here]
    · have elsewhere : ¬ (pattern.isPrefixOf (c :: rest) = true) := by rwa [List.isPrefixOf_iff_prefix]
      rw [if_neg elsewhere, ih]
      simp [here]

end

/-! ### The text of a number -/

theorem isDigit_of_mem_repr {n : Nat} {c : Char} (inside : c ∈ (Nat.repr n).toList) : c.isDigit = true := by
  rw [Nat.toList_repr] at inside
  exact Nat.isDigit_of_mem_toDigits (by decide) (by decide) inside

theorem not_mem_repr {c : Char} (other : c.isDigit = false) (n : Nat) : c ∉ (Nat.repr n).toList :=
  fun inside => Bool.false_ne_true (other.symm.trans (isDigit_of_mem_repr inside))

end SmallGateway.Text
