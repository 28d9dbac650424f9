import Mathlib.Data.List.Nodup
import SmallGateway.Lib.FormEncoding
import SmallGateway.Lib.Records
import SmallGateway.Utf8Bytes
import Std.Data.String.ToNat

/-!
The form bodies of the two STS calls (`assume_role_body`, `assume_role_with_web_identity_body`, `form_encode` and
`form_decode` in `gateway-core/src/aws.rs`). Whatever the role, the names, the token and the session tags are, a reader of
forms finds exactly the parameters that are meant, each once, and the tags under their numbers in order
(`sts_bodies_round_trip`).
-/

namespace SmallGateway.Aws

/-! ### The bodies -/

def upperHexDigit (n : Nat) : Char := Char.ofNat (if n < 10 then 48 + n else 55 + n)

/-- Percent-encodes all bytes but those of the unreserved set of RFC 3986. -/
def formEncode (s : String) : String :=
  String.ofList ((Text.utf8Bytes s).flatMap fun byte =>
    if FormEncoding.isUnreserved byte then [Char.ofNat byte.toNat]
    else ['%', upperHexDigit (byte.toNat / 16), upperHexDigit (byte.toNat % 16)])

def assumeRoleBody (roleArn sessionName : String) (durationSecs : UInt32) (tags : List (String × String)) : String :=
  let body := "Action=AssumeRole&Version=2011-06-15&RoleArn=" ++ formEncode roleArn ++ "&RoleSessionName=" ++
    formEncode sessionName ++ "&DurationSeconds=" ++ Nat.repr durationSecs.toNat
  tags.zipIdx.foldl (fun body ((key, value), i) =>
    let n := Nat.repr (i + 1)
    body ++ ("&Tags.member." ++ n ++ ".Key=" ++ formEncode key ++ "&Tags.member." ++ n ++ ".Value=" ++ formEncode value)) body

def assumeRoleWithWebIdentityBody (roleArn sessionName webIdentityToken : String) (durationSecs : UInt32) : String :=
  "Action=AssumeRoleWithWebIdentity&Version=2011-06-15&RoleArn=" ++ formEncode roleArn ++ "&RoleSessionName=" ++
    formEncode sessionName ++ "&WebIdentityToken=" ++ formEncode webIdentityToken ++ "&DurationSeconds=" ++
    Nat.repr durationSecs.toNat

/-! ### Reading a body -/

/-- The number that two bytes stand for in base 16. A plus sign may come first. -/
def fromStrRadix16 (high low : UInt8) : Option UInt8 :=
  if high = 43 then (FormEncoding.hexValue low).map .ofNat
  else
    match FormEncoding.hexValue high, FormEncoding.hexValue low with
    | some h, some l => some (.ofNat (h * 16 + l))
    | _, _ => none

/-- The text is cut inside a character when it is cut before this byte. -/
def insideChar (byte : UInt8) : Bool := 128 ≤ byte && byte < 192

/-- Decodes the bytes of a form value. Nothing where the two digits of a percent sign end inside a character, where the
    source panics. -/
def formDecodeBytes : List UInt8 → Option (List UInt8)
  | [] => some []
  | [byte] => some [FormEncoding.bare byte]
  | [byte, other] => some [FormEncoding.bare byte, FormEncoding.bare other]
  | sign :: high :: low :: rest =>
    if sign = 37 then
      if rest.head?.any insideChar then none
      else (formDecodeBytes rest).map ((fromStrRadix16 high low).getD 63 :: ·)
    else (formDecodeBytes (high :: low :: rest)).map (FormEncoding.bare sign :: ·)

def formDecode (s : String) : Option String := (formDecodeBytes (Text.utf8Bytes s)).map Text.fromUtf8Lossy

/-- The pairs of a body with their values decoded, as the mock STS reads them. -/
def mockPairs (body : String) : Option (List (String × String)) :=
  (body.toList.splitOn '&').mapM fun pair =>
    let (name, value) := (Text.splitOnce '=' pair).getD (pair, [])
    (formDecode (String.ofList value)).map fun value => (String.ofList name, value)

/-- The fields of a body, as any reader of forms finds them. -/
def formFields (body : String) : List (String × String) :=
  (FormEncoding.fields (Text.utf8Bytes body)).map fun (name, value) => (Text.fromUtf8Lossy name, Text.fromUtf8Lossy value)

/-! ### What is meant -/

def tagName (n : Nat) (field : String) : String := "Tags.member." ++ Nat.repr n ++ "." ++ field

/-- The parameters of the tag of a number. -/
def tagFields (tag : (String × String) × Nat) : List (String × String) :=
  [(tagName tag.2 "Key", tag.1.1), (tagName tag.2 "Value", tag.1.2)]

def assumeRoleFields (roleArn sessionName : String) (durationSecs : UInt32) (tags : List (String × String)) :
    List (String × String) :=
  [("Action", "AssumeRole"), ("Version", "2011-06-15"), ("RoleArn", roleArn), ("RoleSessionName", sessionName),
    ("DurationSeconds", Nat.repr durationSecs.toNat)] ++ (tags.zipIdx 1).flatMap tagFields

def webIdentityFields (roleArn sessionName webIdentityToken : String) (durationSecs : UInt32) : List (String × String) :=
  [("Action", "AssumeRoleWithWebIdentity"), ("Version", "2011-06-15"), ("RoleArn", roleArn),
    ("RoleSessionName", sessionName), ("WebIdentityToken", webIdentityToken),
    ("DurationSeconds", Nat.repr durationSecs.toNat)]

/-! ### Encoded values -/

/-- A text of unreserved characters. -/
def Plain (text : String) : Prop := ∀ byte ∈ Text.utf8Bytes text, FormEncoding.isUnreserved byte = true

instance (text : String) : Decidable (Plain text) := inferInstanceAs (Decidable (∀ byte ∈ Text.utf8Bytes text, _))

/-- One field as it is written. -/
def fieldText (entry : String × String) : List Char := entry.1.toList ++ '=' :: (formEncode entry.2).toList

/-- The text of a form. -/
def formText (fields : List (String × String)) : List Char := ['&'].intercalate (fields.map fieldText)

theorem utf8Encode_ascii {n : Nat} (ascii : n < 0x80) : Text.utf8Encode n = [.ofNat n] := if_pos ascii

theorem upperHexDigit_byte : ∀ n < 16, (upperHexDigit n).toNat < 0x80 ∧
    UInt8.ofNat (upperHexDigit n).toNat = FormEncoding.hexUpper n := by decide

theorem char_toNat {n : Nat} (ascii : n < 0x80) : (Char.ofNat n).toNat = n := by
  rw [Char.ofNat, dif_pos (.inl (by omega))]
  rfl

/-- A byte that stands for itself is a character of ASCII, and no separator. -/
theorem unreserved_ascii {byte : UInt8} (plain : FormEncoding.isUnreserved byte = true) :
    byte.toNat < 0x80 ∧ Char.ofNat byte.toNat ≠ '&' ∧ Char.ofNat byte.toNat ≠ '=' := by
  have all : ∀ n < 256, FormEncoding.isUnreserved (.ofNat n) = true →
      n < 0x80 ∧ Char.ofNat n ≠ '&' ∧ Char.ofNat n ≠ '=' := by decide +kernel
  exact all byte.toNat byte.toNat_lt (by rwa [UInt8.ofNat_toNat])

/-- The bytes of an encoded text are the encoded bytes of the text. -/
theorem utf8Bytes_formEncode (s : String) : Text.utf8Bytes (formEncode s) = FormEncoding.encode (Text.utf8Bytes s) := by
  rw [Text.utf8Bytes, formEncode, String.toList_ofList, List.flatMap_assoc, FormEncoding.encode]
  refine List.flatMap_congr fun byte _ => ?_
  unfold FormEncoding.encodeByte
  split
  · rename_i plain
    have ascii := (unreserved_ascii plain).1
    rw [List.flatMap_singleton, char_toNat ascii, utf8Encode_ascii ascii, UInt8.ofNat_toNat]
  · have below := byte.toNat_lt
    obtain ⟨high, highByte⟩ := upperHexDigit_byte (byte.toNat / 16) (by omega)
    obtain ⟨low, lowByte⟩ := upperHexDigit_byte (byte.toNat % 16) (by omega)
    simp only [List.flatMap_cons, List.flatMap_nil, utf8Encode_ascii high, utf8Encode_ascii low, highByte, lowByte]
    rfl

/-- A plain text is encoded as it is. -/
theorem formEncode_plain {text : String} (plain : Plain text) : formEncode text = text := by
  refine Text.utf8Bytes_injective ?_
  rw [utf8Bytes_formEncode, FormEncoding.encode_unreserved plain]

/-- The characters of an encoded text: no separator among them. -/
theorem formEncode_chars {s : String} {c : Char} (inside : c ∈ (formEncode s).toList) : c ≠ '&' ∧ c ≠ '=' := by
  rw [formEncode, String.toList_ofList] at inside
  obtain ⟨byte, -, among⟩ := List.mem_flatMap.mp inside
  have digit : ∀ n < 16, upperHexDigit n ≠ '&' ∧ upperHexDigit n ≠ '=' := by decide
  have below := byte.toNat_lt
  split at among
  · rename_i unreserved
    rw [List.mem_singleton] at among
    exact among ▸ (unreserved_ascii unreserved).2
  · simp only [List.mem_cons, List.not_mem_nil, or_false] at among
    rcases among with rfl | rfl | rfl
    · decide
    · exact digit _ (by omega)
    · exact digit _ (by omega)

theorem plain_chars {name : String} (plain : Plain name) {c : Char} (inside : c ∈ name.toList) : c ≠ '&' ∧ c ≠ '=' :=
  formEncode_chars (formEncode_plain plain ▸ inside)

/-! ### Reading what is written -/

/-- Any reader of forms finds the fields. -/
theorem formFields_formText {fields : List (String × String)} (plain : ∀ entry ∈ fields, Plain entry.1) :
    formFields (String.ofList (formText fields)) = fields := by
  have field (entry : String × String) (listed : entry ∈ fields) :
      (fieldText entry).flatMap (fun c => Text.utf8Encode c.toNat) =
        FormEncoding.writeField (Text.utf8Bytes entry.1) (Text.utf8Bytes entry.2) := by
    have name : FormEncoding.encode (Text.utf8Bytes entry.1) = Text.utf8Bytes entry.1 :=
      FormEncoding.encode_unreserved (plain entry listed)
    have equals : Text.utf8Encode '='.toNat = [61] := by decide
    rw [fieldText, List.flatMap_append, List.flatMap_cons, equals, FormEncoding.writeField, name, ← utf8Bytes_formEncode,
      Text.utf8Bytes, Text.utf8Bytes, List.singleton_append]
  have bytes : Text.utf8Bytes (String.ofList (formText fields)) =
      FormEncoding.join (fields.map fun entry => (Text.utf8Bytes entry.1, Text.utf8Bytes entry.2)) := by
    rw [Text.utf8Bytes, String.toList_ofList, formText, Text.flatMap_intercalate, FormEncoding.join, List.map_map,
      List.map_map]
    exact congrArg _ (List.map_congr_left field)
  rw [formFields, bytes, FormEncoding.fields_join, List.map_map]
  refine (List.map_congr_left fun entry _ => ?_).trans (List.map_id _)
  simp

theorem formDecodeBytes_plain {byte : UInt8} (plain : FormEncoding.isUnreserved byte = true) (rest : List UInt8) :
    formDecodeBytes (byte :: rest) = (formDecodeBytes rest).map (byte :: ·) := by
  obtain ⟨percent, plus, -, -⟩ := FormEncoding.unreserved_plain plain
  have itself : FormEncoding.bare byte = byte := if_neg plus
  cases rest with
  | nil => exact congrArg (fun b => some [b]) itself
  | cons high rest =>
    cases rest with
    | nil => exact congrArg (fun b => some [b, FormEncoding.bare high]) itself
    | cons low rest => rw [formDecodeBytes, if_neg percent, itself]

theorem fromStrRadix16_hexUpper (byte : UInt8) : fromStrRadix16 (FormEncoding.hexUpper (byte.toNat / 16))
    (FormEncoding.hexUpper (byte.toNat % 16)) = some byte := by
  have below := byte.toNat_lt
  have high := FormEncoding.hexValue_hexUpper (byte.toNat / 16) (by omega)
  have low := FormEncoding.hexValue_hexUpper (byte.toNat % 16) (by omega)
  have digit := (FormEncoding.unreserved_plain (FormEncoding.hexUpper_unreserved (byte.toNat / 16) (by omega))).2.1
  have whole : byte.toNat / 16 * 16 + byte.toNat % 16 = byte.toNat := by omega
  rw [fromStrRadix16, if_neg digit]
  simp only [high, low, whole, UInt8.ofNat_toNat]

/-- No encoded text begins inside a character. -/
theorem encode_head (bytes : List UInt8) : (FormEncoding.encode bytes).head?.any insideChar = false := by
  cases bytes with
  | nil => rfl
  | cons byte rest =>
    rw [FormEncoding.encode, List.flatMap_cons, FormEncoding.encodeByte]
    split
    · rename_i plain
      have ascii : ¬ 128 ≤ byte := fun above => absurd (unreserved_ascii plain).1 (Nat.not_lt.mpr above)
      simp [insideChar, ascii]
    · have percent : insideChar 37 = false := by decide
      exact percent

/-- The bytes of an encoded text decode to those of the text. -/
theorem formDecodeBytes_encode (bytes : List UInt8) : formDecodeBytes (FormEncoding.encode bytes) = some bytes := by
  induction bytes with
  | nil => rfl
  | cons byte rest ih =>
    have next := encode_head rest
    rw [FormEncoding.encode, List.flatMap_cons, ← FormEncoding.encode, FormEncoding.encodeByte]
    split
    · rename_i plain
      rw [List.singleton_append, formDecodeBytes_plain plain, ih]
      rfl
    · simp only [List.cons_append, List.nil_append]
      rw [formDecodeBytes, if_pos rfl, next, if_neg Bool.false_ne_true, ih, fromStrRadix16_hexUpper]
      rfl

theorem formDecode_formEncode (s : String) : formDecode (formEncode s) = some s := by
  rw [formDecode, utf8Bytes_formEncode, formDecodeBytes_encode, Option.map_some, Text.fromUtf8Lossy_utf8Bytes]

/-- The mock STS finds the fields. -/
theorem mockPairs_formText {fields : List (String × String)} (plain : ∀ entry ∈ fields, Plain entry.1)
    (some_ : fields ≠ []) :
    mockPairs (String.ofList (formText fields)) = some fields := by
  have split : (formText fields).splitOn '&' = fields.map fieldText := by
    refine List.splitOn_intercalate '&' (fun part listed => ?_) (by simpa using some_)
    obtain ⟨entry, inside, rfl⟩ := List.mem_map.mp listed
    simp only [fieldText, List.mem_append, List.mem_cons, not_or]
    exact ⟨fun among => (plain_chars (plain entry inside) among).1 rfl, by decide,
      fun among => (formEncode_chars among).1 rfl⟩
  rw [mockPairs, String.toList_ofList, split]
  clear split some_
  induction fields with
  | nil => rfl
  | cons entry rest ih =>
    obtain ⟨here, later⟩ := List.forall_mem_cons.mp plain
    have pair : Text.splitOnce '=' (fieldText entry) = some (entry.1.toList, (formEncode entry.2).toList) :=
      Text.splitOnce_append (fun among => (plain_chars here among).2 rfl) _
    rw [List.map_cons, List.mapM_cons, ih later, pair]
    simp only [Option.getD_some, String.ofList_toList, formDecode_formEncode, Option.map_some, Option.pure_def,
      Option.bind_eq_bind, Option.bind_some]

/-! ### The bodies as forms -/

theorem formText_cons (entry : String × String) (rest : List (String × String)) :
    formText (entry :: rest) = fieldText entry ++ rest.flatMap fun other => '&' :: fieldText other := by
  induction rest generalizing entry with
  | nil => simp [formText]
  | cons next rest ih =>
    have first : formText (entry :: next :: rest) = fieldText entry ++ '&' :: formText (next :: rest) := by
      simp [formText, List.intercalate_cons_cons]
    rw [first, ih, List.flatMap_cons]
    simp

theorem plain_append {text other : String} (plain : Plain text) (plainToo : Plain other) : Plain (text ++ other) := by
  intro byte inside
  rw [Text.utf8Bytes_append, List.mem_append] at inside
  exact inside.elim (plain byte) (plainToo byte)

theorem plain_repr (n : Nat) : Plain (Nat.repr n) := by
  have digits : ∀ m < 0x80, (Char.ofNat m).isDigit = true →
      ∀ byte ∈ Text.utf8Encode m, FormEncoding.isUnreserved byte = true := by
    decide +kernel
  intro byte inside
  obtain ⟨c, among, written⟩ := List.mem_flatMap.mp inside
  have digit := Text.isDigit_of_mem_repr among
  have small : c.toNat < 0x80 := by
    have bounds : 48 ≤ c.val ∧ c.val ≤ 57 := by simpa [Char.isDigit] using digit
    have upper : c.val.toNat ≤ 57 := bounds.2
    exact Nat.lt_of_le_of_lt upper (by decide)
  exact digits c.toNat small (by rwa [Char.ofNat_toNat]) byte written

/-- The words of the two calls need no encoding. -/
theorem words_plain : ∀ word ∈ ["AssumeRole", "AssumeRoleWithWebIdentity", "2011-06-15", "Action", "Version", "RoleArn",
    "RoleSessionName", "DurationSeconds", "WebIdentityToken", "Tags.member.", ".", "Key", "Value"], Plain word := by
  decide +kernel

theorem plain_tagName (n : Nat) {field : String} (plain : Plain field) : Plain (tagName n field) :=
  plain_append (plain_append (plain_append (words_plain _ (by simp)) (plain_repr n)) (words_plain _ (by simp))) plain

/-- What the tags add to a body. -/
theorem tags_toList (body : String) (tags : List (String × String)) (first : Nat) :
    ((tags.zipIdx first).foldl (fun body ((key, value), i) =>
      let n := Nat.repr (i + 1)
      body ++ ("&Tags.member." ++ n ++ ".Key=" ++ formEncode key ++ "&Tags.member." ++ n ++ ".Value=" ++
        formEncode value)) body).toList =
      body.toList ++ ((tags.zipIdx (first + 1)).flatMap tagFields).flatMap fun entry => '&' :: fieldText entry := by
  induction tags generalizing body first with
  | nil => simp
  | cons tag rest ih =>
    rw [List.zipIdx_cons, List.zipIdx_cons, List.foldl_cons, ih]
    simp [tagFields, fieldText, tagName]

/-- What both bodies start with, and any fields after it. -/
theorem call_toList {action : String} (plain : Plain action) (roleArn sessionName : String)
    (more : List (String × String)) :
    ("Action=" ++ action ++ "&Version=2011-06-15&RoleArn=" ++ formEncode roleArn ++ "&RoleSessionName=" ++
        formEncode sessionName).toList ++ more.flatMap (fun entry => '&' :: fieldText entry) =
      formText ([("Action", action), ("Version", "2011-06-15"), ("RoleArn", roleArn), ("RoleSessionName", sessionName)] ++
        more) := by
  have version : formEncode "2011-06-15" = "2011-06-15" := formEncode_plain (words_plain _ (by simp))
  have actionName : "Action=".toList = "Action".toList ++ ['='] := by decide
  have head : "&Version=2011-06-15&RoleArn=".toList =
      '&' :: ("Version".toList ++ '=' :: ("2011-06-15".toList ++ '&' :: ("RoleArn".toList ++ ['=']))) := by decide
  have name : "&RoleSessionName=".toList = '&' :: ("RoleSessionName".toList ++ ['=']) := by decide
  simp only [List.cons_append, formText_cons, fieldText, List.flatMap_cons, List.nil_append, String.toList_append,
    formEncode_plain plain, version, actionName, head, name, List.append_assoc]

theorem duration_toList (durationSecs : UInt32) : ("&DurationSeconds=" ++ Nat.repr durationSecs.toNat).toList =
    '&' :: fieldText ("DurationSeconds", Nat.repr durationSecs.toNat) := by
  have seconds : "&DurationSeconds=".toList = '&' :: ("DurationSeconds".toList ++ ['=']) := by decide
  simp only [String.toList_append, seconds, fieldText, formEncode_plain (plain_repr _), List.cons_append,
    List.append_assoc, List.nil_append]

theorem token_toList (webIdentityToken : String) : ("&WebIdentityToken=" ++ formEncode webIdentityToken).toList =
    '&' :: fieldText ("WebIdentityToken", webIdentityToken) := by
  have token : "&WebIdentityToken=".toList = '&' :: ("WebIdentityToken".toList ++ ['=']) := by decide
  simp only [String.toList_append, token, fieldText, List.cons_append, List.append_assoc, List.nil_append]

theorem assumeRoleBody_eq (roleArn sessionName : String) (durationSecs : UInt32) (tags : List (String × String)) :
    assumeRoleBody roleArn sessionName durationSecs tags =
      String.ofList (formText (assumeRoleFields roleArn sessionName durationSecs tags)) := by
  have head : "Action=AssumeRole&Version=2011-06-15&RoleArn=" =
      "Action=" ++ "AssumeRole" ++ "&Version=2011-06-15&RoleArn=" := by decide
  have meant : assumeRoleFields roleArn sessionName durationSecs tags =
      [("Action", "AssumeRole"), ("Version", "2011-06-15"), ("RoleArn", roleArn), ("RoleSessionName", sessionName)] ++
        (("DurationSeconds", Nat.repr durationSecs.toNat) :: (tags.zipIdx 1).flatMap tagFields) := rfl
  refine String.toList_inj.mp ?_
  rw [String.toList_ofList, meant, ← call_toList (words_plain _ (by simp)), List.flatMap_cons, ← duration_toList,
    ← List.append_assoc, ← String.toList_append, assumeRoleBody, head]
  exact (tags_toList _ tags 0).trans (by simp only [String.append_assoc, Nat.zero_add])

theorem web_identity_body_eq (roleArn sessionName webIdentityToken : String) (durationSecs : UInt32) :
    assumeRoleWithWebIdentityBody roleArn sessionName webIdentityToken durationSecs =
      String.ofList (formText (webIdentityFields roleArn sessionName webIdentityToken durationSecs)) := by
  have head : "Action=AssumeRoleWithWebIdentity&Version=2011-06-15&RoleArn=" =
      "Action=" ++ "AssumeRoleWithWebIdentity" ++ "&Version=2011-06-15&RoleArn=" := by decide
  have meant : webIdentityFields roleArn sessionName webIdentityToken durationSecs =
      [("Action", "AssumeRoleWithWebIdentity"), ("Version", "2011-06-15"), ("RoleArn", roleArn),
        ("RoleSessionName", sessionName)] ++
        [("WebIdentityToken", webIdentityToken), ("DurationSeconds", Nat.repr durationSecs.toNat)] := rfl
  refine String.toList_inj.mp ?_
  rw [String.toList_ofList, meant, ← call_toList (words_plain _ (by simp)), List.flatMap_cons, ← token_toList,
    List.flatMap_cons, ← duration_toList, List.flatMap_nil, List.append_nil, ← String.toList_append,
    ← String.toList_append]
  refine congrArg String.toList ?_
  unfold assumeRoleWithWebIdentityBody
  simp only [head, String.append_assoc]

/-! ### No parameter stands in for another -/

/-- The names of the tag parameters tell the number and the part. -/
theorem tagName_injective {n m : Nat} {field other : String} (same : tagName n field = tagName m other) :
    n = m ∧ field = other := by
  have dotless (k : Nat) : '.' ∉ (Nat.repr k).toList := Text.not_mem_repr (by decide) k
  have texts := congrArg String.toList same
  simp only [tagName, String.toList_append, List.append_assoc] at texts
  obtain ⟨numbers, fields⟩ := Records.split_injective (dotless n) (dotless m) (List.append_cancel_left texts)
  exact ⟨Nat.repr_inj.mp (String.toList_inj.mp numbers), String.toList_inj.mp fields⟩

theorem tagFields_names (tags : List (String × String)) :
    ((tags.zipIdx 1).flatMap tagFields).map (·.1) =
      (List.range' 1 tags.length).flatMap fun n => [tagName n "Key", tagName n "Value"] := by
  rw [← List.zipIdx_map_snd, List.flatMap_map, List.map_flatMap]
  rfl

/-- No parameter is set twice. -/
theorem assumeRoleFields_distinct (roleArn sessionName : String) (durationSecs : UInt32) (tags : List (String × String)) :
    ((assumeRoleFields roleArn sessionName durationSecs tags).map (·.1)).Nodup := by
  rw [assumeRoleFields, List.map_append, tagFields_names]
  have fixed : ["Action", "Version", "RoleArn", "RoleSessionName", "DurationSeconds"].Nodup := by decide
  refine List.nodup_append.mpr ⟨fixed, List.nodup_flatMap.mpr ⟨fun n _ => ?_, ?_⟩, ?_⟩
  · refine List.nodup_cons.mpr ⟨fun inside => ?_, List.nodup_singleton _⟩
    exact absurd (tagName_injective (List.mem_singleton.mp inside)).2 (by decide)
  · have numbers : (List.range' 1 tags.length).Nodup := List.nodup_range'
    refine numbers.imp fun {n m} different => ?_
    intro name first second
    simp only [List.mem_cons, List.not_mem_nil, or_false] at first second
    rcases first with rfl | rfl <;> rcases second with same | same <;> exact different (tagName_injective same).1
  · -- The other names do not start as those of the tags do.
    intro name fixed other tagged same
    subst same
    obtain ⟨n, -, among⟩ := List.mem_flatMap.mp tagged
    have starts : "Tags".toList <+: name.toList := by
      simp only [List.mem_cons, List.not_mem_nil, or_false] at among
      rcases among with rfl | rfl <;> simp [tagName]
    have others : ∀ fixed ∈ ["Action", "Version", "RoleArn", "RoleSessionName", "DurationSeconds"],
        ¬ "Tags".toList <+: fixed.toList := by
      decide
    exact others name fixed starts

/-! ### The round trips -/

theorem assumeRoleFields_plain (roleArn sessionName : String) (durationSecs : UInt32) (tags : List (String × String)) :
    ∀ entry ∈ assumeRoleFields roleArn sessionName durationSecs tags, Plain entry.1 := by
  intro entry listed
  rcases List.mem_append.mp listed with fixed | tagged
  · simp only [List.mem_cons, List.not_mem_nil, or_false] at fixed
    rcases fixed with rfl | rfl | rfl | rfl | rfl <;> exact words_plain _ (by simp)
  · obtain ⟨tag, -, part⟩ := List.mem_flatMap.mp tagged
    simp only [tagFields, List.mem_cons, List.not_mem_nil, or_false] at part
    rcases part with rfl | rfl
    · exact plain_tagName _ (words_plain _ (by simp))
    · exact plain_tagName _ (words_plain _ (by simp))

theorem webIdentityFields_plain (roleArn sessionName webIdentityToken : String) (durationSecs : UInt32) :
    ∀ entry ∈ webIdentityFields roleArn sessionName webIdentityToken durationSecs, Plain entry.1 := by
  intro entry listed
  simp only [webIdentityFields, List.mem_cons, List.not_mem_nil, or_false] at listed
  rcases listed with rfl | rfl | rfl | rfl | rfl | rfl <;> exact words_plain _ (by simp)

end SmallGateway.Aws

namespace SmallGateway

open Aws

/-- Both bodies are read as the fields that are meant, by any reader of forms and by the mock STS, and no parameter is
    there twice. The tags stand under their numbers in order. -/
theorem sts_bodies_round_trip (roleArn sessionName webIdentityToken : String) (durationSecs : UInt32)
    (tags : List (String × String)) :
    (let body := assumeRoleBody roleArn sessionName durationSecs tags
      let fields := assumeRoleFields roleArn sessionName durationSecs tags
      formFields body = fields ∧ mockPairs body = some fields ∧ (fields.map (·.1)).Nodup) ∧
    (let body := assumeRoleWithWebIdentityBody roleArn sessionName webIdentityToken durationSecs
      let fields := webIdentityFields roleArn sessionName webIdentityToken durationSecs
      formFields body = fields ∧ mockPairs body = some fields ∧ (fields.map (·.1)).Nodup) := by
  have plain := assumeRoleFields_plain roleArn sessionName durationSecs tags
  have plainToo := webIdentityFields_plain roleArn sessionName webIdentityToken durationSecs
  refine ⟨⟨?_, ?_, assumeRoleFields_distinct ..⟩, ⟨?_, ?_, ?_⟩⟩
  · rw [assumeRoleBody_eq, formFields_formText plain]
  · rw [assumeRoleBody_eq, mockPairs_formText plain (by simp [assumeRoleFields])]
  · rw [web_identity_body_eq, formFields_formText plainToo]
  · rw [web_identity_body_eq, mockPairs_formText plainToo (by simp [webIdentityFields])]
  · exact (by decide : ["Action", "Version", "RoleArn", "RoleSessionName", "WebIdentityToken",
      "DurationSeconds"].Nodup)

end SmallGateway
