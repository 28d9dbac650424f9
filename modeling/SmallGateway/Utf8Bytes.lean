import SmallGateway.Text

/-!
The bytes of a text and their lossy reading (`String::as_bytes`, `String::from_utf8_lossy`). The bytes of a text read as
the text (`Text.fromUtf8Lossy_utf8Bytes`), and a byte of ASCII among them is a character of the text.
-/

namespace SmallGateway.Text

/-! ### The bytes of a character -/

/-- A byte within the bounds adds its six bits. -/
theorem utf8Rest_byte {value low high n : Nat} {bounds : List (Nat × Nat)} {bytes : List UInt8} (small : n < 256)
    (within : low ≤ n ∧ n ≤ high) :
    utf8Rest value ((low, high) :: bounds) (.ofNat n :: bytes) = utf8Rest (value * 64 + n % 64) bounds bytes := by
  rw [utf8Rest, UInt8.toNat_ofNat_of_lt' small, if_pos within]

/-- The first byte of a character and the bytes that follow it read as the character. -/
def ReadsAs (n : Nat) : Prop :=
  ∃ first rest value bounds, utf8Encode n = first :: rest ∧ utf8Lead first.toNat = some (value, bounds) ∧
    ∀ left, utf8Rest value bounds (rest ++ left) = (some n, left)

theorem readsAs_one {n : Nat} (below : n < 0x80) : ReadsAs n := by
  refine ⟨.ofNat n, [], n, [], by rw [utf8Encode, if_pos below], ?_, fun left => rfl⟩
  rw [UInt8.toNat_ofNat_of_lt' (by show n < 256; omega), utf8Lead, if_pos below]

theorem readsAs_two {n : Nat} (from_ : 0x80 ≤ n) (below : n < 0x800) : ReadsAs n := by
  refine ⟨.ofNat (0xC0 + n / 64), [.ofNat (0x80 + n % 64)], (0xC0 + n / 64) % 32, [continuation], ?_, ?_, fun left => ?_⟩
  · rw [utf8Encode, if_neg (by omega), if_pos below]
  · rw [UInt8.toNat_ofNat_of_lt' (by show 0xC0 + n / 64 < 256; omega), utf8Lead, if_neg (by omega), if_pos (by omega)]
  · rw [List.singleton_append, continuation, utf8Rest_byte (by omega) (by omega), utf8Rest]
    exact congrArg (fun m => (some m, left)) (by omega)

theorem readsAs_three {n : Nat} (from_ : 0x800 ≤ n) (below : n < 0x10000) (scalar : n < 0xD800 ∨ 0xDFFF < n) :
    ReadsAs n := by
  have written : utf8Encode n =
      [.ofNat (0xE0 + n / 4096), .ofNat (0x80 + n / 64 % 64), .ofNat (0x80 + n % 64)] := by
    rw [utf8Encode, if_neg (by omega), if_neg (by omega), if_pos below]
  have lead : (UInt8.ofNat (0xE0 + n / 4096)).toNat = 0xE0 + n / 4096 :=
    UInt8.toNat_ofNat_of_lt' (by show 0xE0 + n / 4096 < 256; omega)
  -- The second byte has narrower bounds after the first and the last row of leads.
  have reads (low high : Nat) (within : low ≤ 0x80 + n / 64 % 64 ∧ 0x80 + n / 64 % 64 ≤ high) (left : List UInt8) :
      utf8Rest ((0xE0 + n / 4096) % 16) [(low, high), continuation]
        ([.ofNat (0x80 + n / 64 % 64), .ofNat (0x80 + n % 64)] ++ left) = (some n, left) := by
    rw [List.cons_append, List.singleton_append, continuation, utf8Rest_byte (by omega) within,
      utf8Rest_byte (by omega) (by omega), utf8Rest]
    exact congrArg (fun m => (some m, left)) (by omega)
  by_cases first : n / 4096 = 0
  · refine ⟨_, _, _, [(0xA0, 0xBF), continuation], written, ?_, reads _ _ (by omega)⟩
    rw [lead, utf8Lead, if_neg (by omega), if_neg (by omega), if_pos (by omega)]
  · by_cases surrogates : n / 4096 = 13
    · refine ⟨_, _, _, [(0x80, 0x9F), continuation], written, ?_, reads _ _ (by omega)⟩
      rw [lead, utf8Lead, if_neg (by omega), if_neg (by omega), if_neg (by omega), if_pos (by omega)]
    · refine ⟨_, _, _, [continuation, continuation], written, ?_, reads _ _ (by omega)⟩
      rw [lead, utf8Lead, if_neg (by omega), if_neg (by omega), if_neg (by omega), if_neg (by omega), if_pos (by omega)]

theorem readsAs_four {n : Nat} (from_ : 0x10000 ≤ n) (below : n < 0x110000) : ReadsAs n := by
  have written : utf8Encode n =
      [.ofNat (0xF0 + n / 262144), .ofNat (0x80 + n / 4096 % 64), .ofNat (0x80 + n / 64 % 64),
        .ofNat (0x80 + n % 64)] := by
    rw [utf8Encode, if_neg (by omega), if_neg (by omega), if_neg (by omega)]
  have lead : (UInt8.ofNat (0xF0 + n / 262144)).toNat = 0xF0 + n / 262144 :=
    UInt8.toNat_ofNat_of_lt' (by show 0xF0 + n / 262144 < 256; omega)
  have reads (low high : Nat) (within : low ≤ 0x80 + n / 4096 % 64 ∧ 0x80 + n / 4096 % 64 ≤ high) (left : List UInt8) :
      utf8Rest ((0xF0 + n / 262144) % 8) [(low, high), continuation, continuation]
        ([.ofNat (0x80 + n / 4096 % 64), .ofNat (0x80 + n / 64 % 64), .ofNat (0x80 + n % 64)] ++ left) =
          (some n, left) := by
    rw [List.cons_append, List.cons_append, List.singleton_append, continuation, utf8Rest_byte (by omega) within,
      utf8Rest_byte (by omega) (by omega), utf8Rest_byte (by omega) (by omega), utf8Rest]
    exact congrArg (fun m => (some m, left)) (by omega)
  by_cases first : n / 262144 = 0
  · refine ⟨_, _, _, [(0x90, 0xBF), continuation, continuation], written, ?_, reads _ _ (by omega)⟩
    rw [lead, utf8Lead, if_neg (by omega), if_neg (by omega), if_neg (by omega), if_neg (by omega), if_neg (by omega),
      if_pos (by omega)]
  · by_cases last : n / 262144 = 4
    · refine ⟨_, _, _, [(0x80, 0x8F), continuation, continuation], written, ?_, reads _ _ (by omega)⟩
      rw [lead, utf8Lead, if_neg (by omega), if_neg (by omega), if_neg (by omega), if_neg (by omega),
        if_neg (by omega), if_neg (by omega), if_neg (by omega), if_pos (by omega)]
    · refine ⟨_, _, _, [continuation, continuation, continuation], written, ?_, reads _ _ (by omega)⟩
      rw [lead, utf8Lead, if_neg (by omega), if_neg (by omega), if_neg (by omega), if_neg (by omega),
        if_neg (by omega), if_neg (by omega), if_pos (by omega)]

theorem readsAs (c : Char) : ReadsAs c.toNat := by
  have valid : c.toNat < 0xD800 ∨ 0xDFFF < c.toNat ∧ c.toNat < 0x110000 := c.valid
  by_cases one : c.toNat < 0x80
  · exact readsAs_one one
  · by_cases two : c.toNat < 0x800
    · exact readsAs_two (by omega) two
    · by_cases three : c.toNat < 0x10000
      · exact readsAs_three (by omega) three (by omega)
      · exact readsAs_four (by omega) (by omega)

/-! ### The bytes of a text -/

@[simp] theorem utf8Bytes_empty : utf8Bytes "" = [] := rfl

@[simp] theorem utf8Bytes_append (text other : String) : utf8Bytes (text ++ other) = utf8Bytes text ++ utf8Bytes other := by
  simp [utf8Bytes]

/-- The characters of a text are read from its bytes whatever follows them. -/
theorem lossyChars_append (chars : List Char) {fuel : Nat} (more : List UInt8)
    (enough : (chars.flatMap fun c => utf8Encode c.toNat).length ≤ fuel) :
    ∃ left, lossyChars fuel ((chars.flatMap fun c => utf8Encode c.toNat) ++ more) = chars ++ lossyChars left more := by
  induction chars generalizing fuel with
  | nil => exact ⟨fuel, rfl⟩
  | cons c rest ih =>
    obtain ⟨first, others, value, bounds, written, lead, reads⟩ := readsAs c
    rw [List.flatMap_cons, written, List.cons_append] at enough ⊢
    rw [List.length_cons, List.length_append] at enough
    cases fuel with
    | zero => omega
    | succ fuel =>
      have within : (rest.flatMap fun c => utf8Encode c.toNat).length ≤ fuel := by omega
      obtain ⟨left, later⟩ := ih within
      refine ⟨left, ?_⟩
      have readAs : Char.ofNat c.toNat = c := Char.ofNat_toNat c
      rw [List.cons_append, List.append_assoc, lossyChars, lead]
      simp only [reads, Option.map_some, Option.getD_some, readAs]
      rw [later]
      rfl

/-- The bytes of a text read as the text. -/
@[simp] theorem fromUtf8Lossy_utf8Bytes (text : String) : fromUtf8Lossy (utf8Bytes text) = text := by
  obtain ⟨left, read⟩ := lossyChars_append text.toList [] (le_refl (utf8Bytes text).length)
  have nothing : lossyChars left [] = [] := by cases left <;> rfl
  rw [List.append_nil, nothing, List.append_nil] at read
  exact (congrArg String.ofList read).trans String.ofList_toList

theorem utf8Bytes_injective {text other : String} (same : utf8Bytes text = utf8Bytes other) : text = other := by
  rw [← fromUtf8Lossy_utf8Bytes text, same, fromUtf8Lossy_utf8Bytes]

/-- What is made of pieces with a separator between them, piece by piece. -/
theorem flatMap_intercalate {α β : Type} (f : α → List β) (separator : List α) (parts : List (List α)) :
    (separator.intercalate parts).flatMap f = (separator.flatMap f).intercalate (parts.map (List.flatMap f)) := by
  induction parts with
  | nil => rfl
  | cons part rest ih =>
    cases rest with
    | nil => simp
    | cons next rest => simp [List.intercalate_cons_cons, List.flatMap_append, ih]

/-! ### Reading any bytes -/

theorem utf8Encode_length_le (n : Nat) : (utf8Encode n).length ≤ 4 := by
  unfold utf8Encode
  split_ifs <;> simp

/-- The bytes that a character takes after its first one are continuation bytes. -/
theorem utf8Rest_taken {value : Nat} {bounds : List (Nat × Nat)} (above : ∀ bound ∈ bounds, 0x80 ≤ bound.1)
    {bytes left : List UInt8} {char : Option Nat} (read : utf8Rest value bounds bytes = (char, left)) :
    ∃ taken, bytes = taken ++ left ∧ ∀ byte ∈ taken, 0x80 ≤ byte.toNat := by
  induction bounds generalizing value bytes with
  | nil =>
    obtain ⟨-, rfl⟩ := Prod.mk.inj read
    exact ⟨[], rfl, nofun⟩
  | cons bound bounds ih =>
    obtain ⟨here, later⟩ := List.forall_mem_cons.mp above
    cases bytes with
    | nil =>
      obtain ⟨-, rfl⟩ := Prod.mk.inj read
      exact ⟨[], rfl, nofun⟩
    | cons byte rest =>
      rw [utf8Rest] at read
      split at read
      · rename_i within
        obtain ⟨taken, rfl, high⟩ := ih later read
        exact ⟨byte :: taken, rfl, List.forall_mem_cons.mpr ⟨here.trans within.1, high⟩⟩
      · obtain ⟨-, rfl⟩ := Prod.mk.inj read
        exact ⟨[], rfl, nofun⟩

theorem utf8Lead_above {byte value : Nat} {bounds : List (Nat × Nat)} (lead : utf8Lead byte = some (value, bounds)) :
    ∀ bound ∈ bounds, 0x80 ≤ bound.1 := by
  unfold utf8Lead at lead
  split_ifs at lead <;>
    · obtain ⟨-, rfl⟩ := Prod.mk.inj (Option.some.inj lead)
      decide

/-- A byte of ASCII is a character by itself. -/
theorem utf8Lead_ascii {byte : Nat} (ascii : byte < 0x80) : utf8Lead byte = some (byte, []) := if_pos ascii

/-- What is read after a byte beyond ASCII is no character of ASCII. -/
theorem utf8Rest_beyond {byte : UInt8} (beyond : 0x80 ≤ byte.toNat) {value : Nat} {bounds : List (Nat × Nat)}
    {bytes left : List UInt8} {char : Option Nat} (lead : utf8Lead byte.toNat = some (value, bounds))
    (read : utf8Rest value bounds bytes = (char, left)) : 0x80 ≤ ((char.map Char.ofNat).getD '\uFFFD').toNat := by
  cases char with
  | none => decide
  | some found =>
    obtain ⟨written, valid⟩ := utf8Encode_of_read lead read
    have readAs : (Char.ofNat found).toNat = found := by rw [Char.ofNat, dif_pos valid]; rfl
    rw [Option.map_some, Option.getD_some, readAs]
    by_contra small
    rw [utf8Encode, if_pos (by omega)] at written
    have first := congrArg UInt8.toNat (List.cons.inj written).1
    rw [UInt8.toNat_ofNat_of_lt' (show found < 256 by omega)] at first
    omega

/-- A character of ASCII is read as often as its byte is there. -/
theorem count_lossyChars {c : Char} (ascii : c.toNat < 0x80) {fuel : Nat} {bytes : List UInt8}
    (enough : bytes.length ≤ fuel) : (lossyChars fuel bytes).count c = bytes.count (.ofNat c.toNat) := by
  have own : (UInt8.ofNat c.toNat).toNat = c.toNat := UInt8.toNat_ofNat_of_lt' (show c.toNat < 256 by omega)
  induction fuel generalizing bytes with
  | zero =>
    rw [List.length_eq_zero_iff.mp (Nat.le_zero.mp enough)]
    rfl
  | succ fuel ih =>
    cases bytes with
    | nil => rfl
    | cons byte bytes =>
      rw [List.length_cons] at enough
      rw [lossyChars]
      by_cases small : byte.toNat < 0x80
      · have itself : (Char.ofNat byte.toNat).toNat = byte.toNat := by
          rw [Char.ofNat, dif_pos (.inl (by omega))]
          rfl
        have same : Char.ofNat byte.toNat = c ↔ byte = .ofNat c.toNat := by
          rw [← Char.toNat_inj, itself, ← UInt8.toNat_inj, own]
        rw [utf8Lead_ascii small]
        simp only [utf8Rest, Option.map_some, Option.getD_some, List.count_cons, ih (by omega : bytes.length ≤ fuel),
          beq_iff_eq, same]
      · have otherByte : byte ≠ .ofNat c.toNat := by
          rintro rfl
          omega
        rw [List.count_cons_of_ne otherByte]
        cases lead : utf8Lead byte.toNat with
        | none =>
          have other : '\uFFFD' ≠ c := by
            rintro rfl
            exact absurd ascii (by decide)
          rw [List.count_cons_of_ne other]
          exact ih (by omega)
        | some row =>
          obtain ⟨value, bounds⟩ := row
          rcases read : utf8Rest value bounds bytes with ⟨char, left⟩
          obtain ⟨taken, rfl, high⟩ := utf8Rest_taken (utf8Lead_above lead) read
          have beyond := utf8Rest_beyond (by omega) lead read
          have other : (char.map Char.ofNat).getD '\uFFFD' ≠ c := by
            rintro rfl
            omega
          have none : taken.count (.ofNat c.toNat) = 0 := by
            refine List.count_eq_zero.mpr fun inside => ?_
            have := high _ inside
            omega
          rw [List.length_append] at enough
          simp only [read, List.count_cons_of_ne other, List.count_append, none, Nat.zero_add]
          exact ih (by omega)

theorem count_fromUtf8Lossy {c : Char} (ascii : c.toNat < 0x80) (bytes : List UInt8) :
    (fromUtf8Lossy bytes).toList.count c = bytes.count (.ofNat c.toNat) := by
  rw [fromUtf8Lossy, String.toList_ofList, count_lossyChars ascii le_rfl]

theorem count_utf8Bytes {c : Char} (ascii : c.toNat < 0x80) (text : String) :
    (utf8Bytes text).count (.ofNat c.toNat) = text.toList.count c := by
  rw [← count_fromUtf8Lossy ascii, fromUtf8Lossy_utf8Bytes]

/-- A byte of ASCII is there exactly when its character is. -/
theorem mem_utf8Bytes {c : Char} (ascii : c.toNat < 0x80) {text : String} :
    .ofNat c.toNat ∈ utf8Bytes text ↔ c ∈ text.toList := by
  rw [← List.count_pos_iff, count_utf8Bytes ascii, List.count_pos_iff]

/-- A text has at most as many characters as it was read from bytes. -/
theorem lossyChars_length_le {fuel : Nat} {bytes : List UInt8} : (lossyChars fuel bytes).length ≤ bytes.length := by
  induction fuel generalizing bytes with
  | zero => exact Nat.zero_le _
  | succ fuel ih =>
    cases bytes with
    | nil => exact Nat.le_refl _
    | cons byte bytes =>
      rw [lossyChars]
      cases lead : utf8Lead byte.toNat with
      | none => exact Nat.succ_le_succ ih
      | some row =>
        obtain ⟨value, bounds⟩ := row
        rcases read : utf8Rest value bounds bytes with ⟨char, left⟩
        obtain ⟨taken, rfl, -⟩ := utf8Rest_taken (utf8Lead_above lead) read
        have rest : (lossyChars fuel left).length ≤ left.length := ih
        simp only [read, List.length_cons, List.length_append]
        omega

/-- The first bytes of a text are those of its first characters and a part of the next one. -/
theorem take_utf8Encode (chars : List Char) (n : Nat) : ∃ m rest, rest.length ≤ 4 ∧
    (chars.flatMap fun c => utf8Encode c.toNat).take n = ((chars.take m).flatMap fun c => utf8Encode c.toNat) ++ rest := by
  induction chars generalizing n with
  | nil => exact ⟨0, [], Nat.zero_le _, by simp⟩
  | cons c rest ih =>
    by_cases inside : n ≤ (utf8Encode c.toNat).length
    · refine ⟨0, (utf8Encode c.toNat).take n, ?_, ?_⟩
      · rw [List.length_take]
        exact (Nat.min_le_right _ _).trans (utf8Encode_length_le _)
      · rw [List.flatMap_cons, List.take_append_of_le_length inside]
        rfl
    · obtain ⟨m, part, short, same⟩ := ih (n - (utf8Encode c.toNat).length)
      refine ⟨m + 1, part, short, ?_⟩
      rw [List.flatMap_cons, List.take_append, List.take_of_length_le (by omega), same, List.take_succ_cons,
        List.flatMap_cons, List.append_assoc]

/-- The first bytes of a text read as the whole text only when hardly any are missing. -/
theorem length_of_take {text : String} {n : Nat} (same : fromUtf8Lossy ((utf8Bytes text).take n) = text) :
    (utf8Bytes text).length ≤ n + 16 := by
  obtain ⟨m, part, short, cut⟩ := take_utf8Encode text.toList n
  have taken : (utf8Bytes text).take n = ((text.toList.take m).flatMap fun c => utf8Encode c.toNat) ++ part := cut
  have size := congrArg List.length taken
  rw [List.length_take, List.length_append] at size
  have enough : ((text.toList.take m).flatMap fun c => utf8Encode c.toNat).length ≤
      (((text.toList.take m).flatMap fun c => utf8Encode c.toNat) ++ part).length := by
    rw [List.length_append]
    omega
  obtain ⟨fuel, read⟩ := lossyChars_append (text.toList.take m) part enough
  have chars : text.toList = text.toList.take m ++ lossyChars fuel part := by
    have whole := congrArg String.toList same
    rwa [fromUtf8Lossy, String.toList_ofList, taken, read, eq_comm] at whole
  have missing : (text.toList.drop m).length ≤ 4 := by
    have lengths := congrArg List.length chars
    have few : (lossyChars fuel part).length ≤ part.length := lossyChars_length_le
    rw [List.length_append] at lengths
    rw [List.length_drop]
    rw [List.length_take] at lengths
    omega
  have rest (left : List Char) : (left.flatMap fun c => utf8Encode c.toNat).length ≤ 4 * left.length := by
    induction left with
    | nil => exact Nat.le_refl 0
    | cons c left ih =>
      have one := utf8Encode_length_le c.toNat
      rw [List.flatMap_cons, List.length_append, List.length_cons]
      omega
  have parts : utf8Bytes text = ((text.toList.take m).flatMap fun c => utf8Encode c.toNat) ++
      (text.toList.drop m).flatMap fun c => utf8Encode c.toNat := by
    rw [← List.flatMap_append, List.take_append_drop]
    rfl
  have whole := congrArg List.length parts
  have left := rest (text.toList.drop m)
  rw [List.length_append] at whole
  omega

end SmallGateway.Text
