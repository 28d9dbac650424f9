import Mathlib.Data.List.Nodup

/-!
Base64 without padding. Bytes are regrouped to sextets, of which the last one is filled up with zeros, and a sextet is
written as a symbol of an alphabet. The reading is strict: the last sextet has to be filled up with zeros, so that a
text is read exactly when it is the one that is written for what it is read as (`decode_eq_some_iff`).
-/

namespace Base64

/-! ### Sextets -/

def sextets : List UInt8 → List Nat
  | [] => []
  | [x] => [x.toNat / 4, x.toNat % 4 * 16]
  | [x, y] => [x.toNat / 4, x.toNat % 4 * 16 + y.toNat / 16, y.toNat % 16 * 4]
  | x :: y :: z :: rest =>
    x.toNat / 4 :: (x.toNat % 4 * 16 + y.toNat / 16) :: (y.toNat % 16 * 4 + z.toNat / 64) :: z.toNat % 64 ::
      sextets rest

def firstByte (a b : Nat) : UInt8 := .ofNat (a * 4 + b / 16)

def secondByte (b c : Nat) : UInt8 := .ofNat (b % 16 * 16 + c / 4)

def thirdByte (c d : Nat) : UInt8 := .ofNat (c % 4 * 64 + d)

/-- The bytes that sextets hold. A single sextet holds none, and what is left of the last one has to be zero. -/
def bytes? : List Nat → Option (List UInt8)
  | [] => some []
  | [_] => none
  | [a, b] => if b % 16 = 0 then some [firstByte a b] else none
  | [a, b, c] => if c % 4 = 0 then some [firstByte a b, secondByte b c] else none
  | a :: b :: c :: d :: rest =>
    (bytes? rest).map fun more => firstByte a b :: secondByte b c :: thirdByte c d :: more

theorem toNat_ofNat_lt {n : Nat} (small : n < 256) : (UInt8.ofNat n).toNat = n := UInt8.toNat_ofNat_of_lt small

theorem sextets_lt (bytes : List UInt8) : ∀ sextet ∈ sextets bytes, sextet < 64 := by
  fun_induction sextets bytes with
  | case1 => simp
  | case2 x =>
    have := x.toNat_lt
    simp only [List.mem_cons, List.not_mem_nil, or_false, forall_eq_or_imp, forall_eq]
    omega
  | case3 x y =>
    have := x.toNat_lt
    have := y.toNat_lt
    simp only [List.mem_cons, List.not_mem_nil, or_false, forall_eq_or_imp, forall_eq]
    omega
  | case4 x y z rest ih =>
    have := x.toNat_lt
    have := y.toNat_lt
    have := z.toNat_lt
    simp only [List.mem_cons, forall_eq_or_imp]
    exact ⟨by omega, by omega, by omega, by omega, ih⟩

theorem firstByte_sextets (x : UInt8) {low : Nat} (small : low < 16) :
    firstByte (x.toNat / 4) (x.toNat % 4 * 16 + low) = x := by
  have joined : x.toNat / 4 * 4 + (x.toNat % 4 * 16 + low) / 16 = x.toNat := by omega
  rw [firstByte, joined, UInt8.ofNat_toNat]

theorem secondByte_sextets (x y : UInt8) {low : Nat} (small : low < 4) :
    secondByte (x.toNat % 4 * 16 + y.toNat / 16) (y.toNat % 16 * 4 + low) = y := by
  have := y.toNat_lt
  have joined : (x.toNat % 4 * 16 + y.toNat / 16) % 16 * 16 + (y.toNat % 16 * 4 + low) / 4 = y.toNat := by omega
  rw [secondByte, joined, UInt8.ofNat_toNat]

theorem thirdByte_sextets (y z : UInt8) : thirdByte (y.toNat % 16 * 4 + z.toNat / 64) (z.toNat % 64) = z := by
  have := z.toNat_lt
  have joined : (y.toNat % 16 * 4 + z.toNat / 64) % 4 * 64 + z.toNat % 64 = z.toNat := by omega
  rw [thirdByte, joined, UInt8.ofNat_toNat]

/-- The sextets of bytes hold the bytes. -/
theorem bytes?_sextets (bytes : List UInt8) : bytes? (sextets bytes) = some bytes := by
  fun_induction sextets bytes with
  | case1 => rfl
  | case2 x =>
    have first := firstByte_sextets x (Nat.zero_lt_succ 15)
    rw [Nat.add_zero] at first
    rw [bytes?, if_pos (by omega), first]
  | case3 x y =>
    have := y.toNat_lt
    have first := firstByte_sextets x (show y.toNat / 16 < 16 by omega)
    have second := secondByte_sextets x y (Nat.zero_lt_succ 3)
    rw [Nat.add_zero] at second
    rw [bytes?, if_pos (by omega), first, second]
  | case4 x y z rest ih =>
    have := y.toNat_lt
    have := z.toNat_lt
    rw [bytes?, ih, Option.map_some, firstByte_sextets x (by omega), secondByte_sextets x y (by omega),
      thirdByte_sextets y z]

/-- Sextets that hold bytes are the sextets of these. -/
theorem sextets_of_bytes? {all : List Nat} {bytes : List UInt8} (small : ∀ sextet ∈ all, sextet < 64)
    (holds : bytes? all = some bytes) : sextets bytes = all := by
  fun_induction bytes? all generalizing bytes with
  | case1 =>
    obtain rfl := Option.some.inj holds
    rfl
  | case2 => cases holds
  | case3 a b zero =>
    obtain rfl := Option.some.inj holds
    simp only [List.mem_cons, List.not_mem_nil, or_false, forall_eq_or_imp, forall_eq] at small
    have first : (firstByte a b).toNat = a * 4 + b / 16 := toNat_ofNat_lt (by omega)
    rw [sextets, first]
    congr 1
    · omega
    · congr 1
      omega
  | case4 => cases holds
  | case5 a b c zero =>
    obtain rfl := Option.some.inj holds
    simp only [List.mem_cons, List.not_mem_nil, or_false, forall_eq_or_imp, forall_eq] at small
    have first : (firstByte a b).toNat = a * 4 + b / 16 := toNat_ofNat_lt (by omega)
    have second : (secondByte b c).toNat = b % 16 * 16 + c / 4 := toNat_ofNat_lt (by omega)
    rw [sextets, first, second]
    congr 1
    · omega
    · congr 1
      · omega
      · congr 1
        omega
  | case6 => cases holds
  | case7 a b c d rest ih =>
    obtain ⟨more, held, rfl⟩ := Option.map_eq_some_iff.mp holds
    simp only [List.mem_cons, forall_eq_or_imp] at small
    have first : (firstByte a b).toNat = a * 4 + b / 16 := toNat_ofNat_lt (by omega)
    have second : (secondByte b c).toNat = b % 16 * 16 + c / 4 := toNat_ofNat_lt (by omega)
    have third : (thirdByte c d).toNat = c % 4 * 64 + d := toNat_ofNat_lt (by omega)
    rw [sextets, first, second, third, ih small.2.2.2.2 held]
    congr 1
    · omega
    · congr 1
      · omega
      · congr 1
        · omega
        · congr 1
          omega

/-! ### Symbols -/

/-- Sixty-four symbols, each of them once. -/
structure Alphabet where
  symbols : List Char
  length : symbols.length = 64
  distinct : symbols.Nodup

namespace Alphabet

variable (alphabet : Alphabet)

def symbol (sextet : Nat) : Char := alphabet.symbols.getD sextet ' '

/-- The sextet that a symbol stands for. -/
def sextet? (c : Char) : Option Nat :=
  let place := alphabet.symbols.idxOf c
  if place < 64 then some place else none

variable {alphabet}

theorem sextet?_symbol {sextet : Nat} (small : sextet < 64) :
    alphabet.sextet? (alphabet.symbol sextet) = some sextet := by
  have inside : sextet < alphabet.symbols.length := alphabet.length.symm ▸ small
  have same : alphabet.symbol sextet = alphabet.symbols[sextet] := by
    rw [symbol, List.getD_eq_getElem?_getD, List.getElem?_eq_getElem inside, Option.getD_some]
  rw [sextet?, same, alphabet.distinct.idxOf_getElem sextet inside, if_pos small]

theorem symbol_of_sextet? {c : Char} {sextet : Nat} (reads : alphabet.sextet? c = some sextet) :
    sextet < 64 ∧ alphabet.symbol sextet = c := by
  obtain ⟨small, same⟩ := Option.ite_none_right_eq_some.mp reads
  obtain rfl := Option.some.inj same
  have inside : alphabet.symbols.idxOf c < alphabet.symbols.length := alphabet.length.symm ▸ small
  refine ⟨small, ?_⟩
  rw [symbol, List.getD_eq_getElem?_getD, List.getElem?_eq_getElem inside, Option.getD_some, List.getElem_idxOf]

theorem symbol_mem {sextet : Nat} (small : sextet < 64) : alphabet.symbol sextet ∈ alphabet.symbols := by
  have inside : sextet < alphabet.symbols.length := alphabet.length.symm ▸ small
  rw [symbol, List.getD_eq_getElem?_getD, List.getElem?_eq_getElem inside, Option.getD_some]
  exact List.getElem_mem inside

theorem mapM_sextet?_map {all : List Nat} (small : ∀ sextet ∈ all, sextet < 64) :
    (all.map alphabet.symbol).mapM alphabet.sextet? = some all := by
  induction all with
  | nil => rfl
  | cons sextet rest ih =>
    rw [List.map_cons, List.mapM_cons, sextet?_symbol (small sextet List.mem_cons_self),
      ih fun other inside => small other (List.mem_cons_of_mem _ inside)]
    rfl

theorem map_of_mapM_sextet? {text : List Char} {all : List Nat} (reads : text.mapM alphabet.sextet? = some all) :
    (∀ sextet ∈ all, sextet < 64) ∧ all.map alphabet.symbol = text := by
  induction text generalizing all with
  | nil =>
    obtain rfl := Option.some.inj reads
    exact ⟨by simp, rfl⟩
  | cons c rest ih =>
    rw [List.mapM_cons] at reads
    obtain ⟨sextet, first, others⟩ := Option.bind_eq_some_iff.mp reads
    obtain ⟨more, next, same⟩ := Option.bind_eq_some_iff.mp others
    obtain rfl := Option.some.inj same
    obtain ⟨small, symbol⟩ := symbol_of_sextet? first
    obtain ⟨smaller, symbols⟩ := ih next
    exact ⟨List.forall_mem_cons.mpr ⟨small, smaller⟩, by rw [List.map_cons, symbol, symbols]⟩

end Alphabet

/-! ### Texts -/

def encode (alphabet : Alphabet) (bytes : List UInt8) : List Char := (sextets bytes).map alphabet.symbol

def decode (alphabet : Alphabet) (text : List Char) : Option (List UInt8) :=
  (text.mapM alphabet.sextet?).bind bytes?

variable {alphabet : Alphabet}

theorem encode_mem (bytes : List UInt8) : ∀ c ∈ encode alphabet bytes, c ∈ alphabet.symbols := by
  intro c inside
  obtain ⟨sextet, listed, rfl⟩ := List.mem_map.mp inside
  exact Alphabet.symbol_mem (sextets_lt bytes sextet listed)

@[simp] theorem decode_encode (bytes : List UInt8) : decode alphabet (encode alphabet bytes) = some bytes := by
  rw [decode, encode, Alphabet.mapM_sextet?_map (sextets_lt bytes), Option.bind_some, bytes?_sextets]

/-- A text is read as the bytes that it is written for, and no other text is. -/
theorem decode_eq_some_iff {text : List Char} {bytes : List UInt8} :
    decode alphabet text = some bytes ↔ text = encode alphabet bytes := by
  constructor
  · intro reads
    obtain ⟨all, symbols, holds⟩ := Option.bind_eq_some_iff.mp reads
    obtain ⟨small, same⟩ := Alphabet.map_of_mapM_sextet? symbols
    rw [encode, sextets_of_bytes? small holds, same]
  · rintro rfl
    exact decode_encode bytes

theorem encode_injective : Function.Injective (encode alphabet) := by
  intro bytes others same
  have reads := @decode_encode alphabet bytes
  rw [same, decode_encode] at reads
  exact (Option.some.inj reads).symm

/-- The letters, the digits, `-` and `_`. -/
def urlSafe : Alphabet where
  symbols := "ABCDEFGHIJKLMNOPQRSTUVWXYZabcdefghijklmnopqrstuvwxyz0123456789-_".toList
  length := by decide
  distinct := by decide

end Base64
