import Mathlib.Algebra.Group.Nat.Defs
import Mathlib.Data.List.Induction

/-!
Numbers as bytes in big-endian order, in a fixed width. What is written is had back where it fits the width, and modulo
the width elsewhere (`decode_encode_mod`).
-/

namespace BigEndian

def encode : Nat → Nat → List UInt8
  | 0, _ => []
  | width + 1, n => encode width (n / 256) ++ [.ofNat (n % 256)]

def decode (bytes : List UInt8) : Nat := bytes.foldl (fun value byte => value * 256 + byte.toNat) 0

@[simp] theorem encode_length (width n : Nat) : (encode width n).length = width := by
  induction width generalizing n with
  | zero => rfl
  | succ width ih => rw [encode, List.length_append, ih, List.length_singleton]

@[simp] theorem decode_singleton (byte : UInt8) : decode [byte] = byte.toNat := by
  simp [decode]

theorem decode_append_byte (bytes : List UInt8) (byte : UInt8) :
    decode (bytes ++ [byte]) = decode bytes * 256 + byte.toNat := by
  simp [decode]

theorem decode_lt (bytes : List UInt8) : decode bytes < 256 ^ bytes.length := by
  induction bytes using List.reverseRecOn with
  | nil => simp [decode]
  | append_singleton bytes byte ih =>
    have digit := byte.toNat_lt
    rw [decode_append_byte, List.length_append, List.length_singleton, Nat.pow_succ]
    omega

theorem decode_encode_mod (width n : Nat) : decode (encode width n) = n % 256 ^ width := by
  induction width generalizing n with
  | zero => simp [encode, decode, Nat.mod_one]
  | succ width ih =>
    have digit : (UInt8.ofNat (n % 256)).toNat = n % 256 := by
      rw [UInt8.toNat_ofNat', Nat.mod_mod]
    rw [encode, decode_append_byte, ih, digit, Nat.pow_succ, Nat.mul_comm (256 ^ width) 256, Nat.mod_mul]
    omega

theorem decode_encode {width n : Nat} (fits : n < 256 ^ width) : decode (encode width n) = n := by
  rw [decode_encode_mod, Nat.mod_eq_of_lt fits]

end BigEndian
