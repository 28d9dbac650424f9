import Mathlib.Data.List.Basic

/-!
Forms as bytes (`application/x-www-form-urlencoded`). A byte outside of the unreserved set is written as a percent sign
and two hexadecimal digits; a form is the list of its fields, with a name and a value each. The fields that are written
are the ones that are read, whatever bytes they hold (`fields_join`).
-/

namespace FormEncoding

/-- A letter, a digit, or one of `-`, `.`, `_`, `~`. -/
def isUnreserved (byte : UInt8) : Bool :=
  (65 ≤ byte && byte ≤ 90) || (97 ≤ byte && byte ≤ 122) || (48 ≤ byte && byte ≤ 57) ||
    byte = 45 || byte = 46 || byte = 95 || byte = 126

/-- An uppercase hexadecimal digit. -/
def hexUpper (n : Nat) : UInt8 := .ofNat (if n < 10 then 48 + n else 55 + n)

/-- The value of a hexadecimal digit of either case. -/
def hexValue (byte : UInt8) : Option Nat :=
  if 48 ≤ byte ∧ byte ≤ 57 then some (byte.toNat - 48)
  else if 65 ≤ byte ∧ byte ≤ 70 then some (byte.toNat - 55)
  else if 97 ≤ byte ∧ byte ≤ 102 then some (byte.toNat - 87)
  else none

def encodeByte (byte : UInt8) : List UInt8 :=
  if isUnreserved byte then [byte] else [37, hexUpper (byte.toNat / 16), hexUpper (byte.toNat % 16)]

def encode (bytes : List UInt8) : List UInt8 := bytes.flatMap encodeByte

/-- The byte that a percent sign and two digits stand for. -/
def octet (sign high low : UInt8) : Option UInt8 :=
  if sign = 37 then
    match hexValue high, hexValue low with
    | some h, some l => some (.ofNat (h * 16 + l))
    | _, _ => none
  else none

/-- A byte by itself. A plus sign stands for a blank. -/
def bare (byte : UInt8) : UInt8 := if byte = 43 then 32 else byte

/-- Reads percent signs with their digits. One without digits stands for itself. -/
def decode : List UInt8 → List UInt8
  | [] => []
  | [byte] => [bare byte]
  | [byte, other] => [bare byte, bare other]
  | sign :: high :: low :: rest =>
    match octet sign high low with
    | some byte => byte :: decode rest
    | none => bare sign :: decode (high :: low :: rest)

/-- The name of a field stands before its first `=`. -/
def field (bytes : List UInt8) : List UInt8 × List UInt8 :=
  (decode (bytes.takeWhile (· ≠ 61)), decode ((bytes.dropWhile (· ≠ 61)).drop 1))

/-- The fields of a form, which `&` stands between. -/
def fields (form : List UInt8) : List (List UInt8 × List UInt8) := ((form.splitOn 38).filter (· ≠ [])).map field

def writeField (name value : List UInt8) : List UInt8 := encode name ++ 61 :: encode value

def join (written : List (List UInt8 × List UInt8)) : List UInt8 :=
  [38].intercalate (written.map fun entry => writeField entry.1 entry.2)

/-! ### One byte -/

theorem hexValue_hexUpper : ∀ n < 16, hexValue (hexUpper n) = some n := by decide

theorem unreserved_plain {byte : UInt8} (plain : isUnreserved byte = true) :
    byte ≠ 37 ∧ byte ≠ 43 ∧ byte ≠ 38 ∧ byte ≠ 61 := by
  refine ⟨?_, ?_, ?_, ?_⟩ <;> rintro rfl <;> exact absurd plain (by decide)

theorem hexUpper_unreserved : ∀ n < 16, isUnreserved (hexUpper n) = true := by decide

theorem decode_plain {byte : UInt8} (plain : isUnreserved byte = true) (rest : List UInt8) :
    decode (byte :: rest) = byte :: decode rest := by
  obtain ⟨percent, plus, -, -⟩ := unreserved_plain plain
  have itself : bare byte = byte := if_neg plus
  cases rest with
  | nil => exact congrArg (· :: []) itself
  | cons high rest =>
    cases rest with
    | nil => exact congrArg (· :: [bare high]) itself
    | cons low rest =>
      have none : octet byte high low = none := if_neg percent
      rw [decode, none, itself]

/-- What a byte is written with reads as the byte. -/
theorem decode_encodeByte (byte : UInt8) (rest : List UInt8) : decode (encodeByte byte ++ rest) = byte :: decode rest := by
  unfold encodeByte
  split
  · rename_i plain
    exact decode_plain plain rest
  · have below := byte.toNat_lt
    have high := hexValue_hexUpper (byte.toNat / 16) (by omega)
    have low := hexValue_hexUpper (byte.toNat % 16) (by omega)
    have whole : byte.toNat / 16 * 16 + byte.toNat % 16 = byte.toNat := by omega
    have read : octet 37 (hexUpper (byte.toNat / 16)) (hexUpper (byte.toNat % 16)) = some byte := by
      simp only [octet, high, low, whole, UInt8.ofNat_toNat, if_true]
    simp only [List.cons_append, List.nil_append]
    rw [decode, read]

/-- No separator is written for a byte. -/
theorem encodeByte_plain {byte written : UInt8} (inside : written ∈ encodeByte byte) : written ≠ 38 ∧ written ≠ 61 := by
  unfold encodeByte at inside
  split at inside
  · rename_i plain
    rw [List.mem_singleton] at inside
    exact inside ▸ (unreserved_plain plain).2.2
  · have below := byte.toNat_lt
    simp only [List.mem_cons, List.not_mem_nil, or_false] at inside
    rcases inside with rfl | rfl | rfl
    · decide
    · exact (unreserved_plain (hexUpper_unreserved _ (by omega))).2.2
    · exact (unreserved_plain (hexUpper_unreserved _ (by omega))).2.2

/-! ### Fields -/

@[simp] theorem decode_encode (bytes : List UInt8) : decode (encode bytes) = bytes := by
  have before (bytes rest : List UInt8) : decode (encode bytes ++ rest) = bytes ++ decode rest := by
    induction bytes with
    | nil => rfl
    | cons byte bytes ih => rw [encode, List.flatMap_cons, List.append_assoc, decode_encodeByte, ← encode, ih]; rfl
  have whole := before bytes []
  rwa [List.append_nil, decode, List.append_nil] at whole

theorem encode_plain {bytes : List UInt8} {written : UInt8} (inside : written ∈ encode bytes) :
    written ≠ 38 ∧ written ≠ 61 := by
  obtain ⟨byte, -, among⟩ := List.mem_flatMap.mp inside
  exact encodeByte_plain among

/-- Bytes of the unreserved set are written as they are. -/
theorem encode_unreserved {bytes : List UInt8} (plain : ∀ byte ∈ bytes, isUnreserved byte = true) :
    encode bytes = bytes := by
  induction bytes with
  | nil => rfl
  | cons byte bytes ih =>
    obtain ⟨here, later⟩ := List.forall_mem_cons.mp plain
    rw [encode, List.flatMap_cons, ← encode, ih later, encodeByte, if_pos here]
    rfl

theorem field_writeField (name value : List UInt8) : field (writeField name value) = (name, value) := by
  have named : ∀ byte ∈ encode name, decide (byte ≠ 61) = true := fun byte inside =>
    decide_eq_true (encode_plain inside).2
  have first : (writeField name value).takeWhile (· ≠ 61) = encode name := by
    rw [writeField, List.takeWhile_append_of_pos named]
    simp
  have rest : (writeField name value).dropWhile (· ≠ 61) = 61 :: encode value := by
    rw [writeField, List.dropWhile_append_of_pos named]
    simp
  rw [field, first, rest, List.drop_one, List.tail_cons, decode_encode, decode_encode]

/-- The fields that are written are the ones that are read. -/
theorem fields_join (written : List (List UInt8 × List UInt8)) : fields (join written) = written := by
  cases written with
  | nil => rfl
  | cons entry rest =>
    have split : (join (entry :: rest)).splitOn 38 = (entry :: rest).map fun entry => writeField entry.1 entry.2 := by
      refine List.splitOn_intercalate 38 (fun part listed => ?_) (by simp)
      obtain ⟨⟨name, value⟩, -, rfl⟩ := List.mem_map.mp listed
      simp only [writeField, List.mem_append, List.mem_cons, not_or]
      exact ⟨fun inside => (encode_plain inside).1 rfl, by decide, fun inside => (encode_plain inside).1 rfl⟩
    have filled : ∀ part ∈ (entry :: rest).map fun entry => writeField entry.1 entry.2, decide (part ≠ []) = true := by
      intro part listed
      obtain ⟨entry, -, rfl⟩ := List.mem_map.mp listed
      simp [writeField]
    rw [fields, split, List.filter_eq_self.mpr filled, List.map_map]
    refine (List.map_congr_left fun entry _ => ?_).trans (List.map_id _)
    exact field_writeField entry.1 entry.2

end FormEncoding
