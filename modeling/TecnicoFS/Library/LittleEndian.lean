/-
Natural numbers as bytes, the least significant byte first.
-/

import Mathlib.Algebra.Group.Nat.Defs
import Mathlib.Tactic.Positivity
import Mathlib.Tactic.Zify

set_option autoImplicit false

namespace LittleEndian

def encode : Nat → Nat → List UInt8
  | 0, _ => []
  | length + 1, value => UInt8.ofNat value :: encode length (value / 256)

def decode : List UInt8 → Nat
  | [] => 0
  | byte :: bytes => byte.toNat + 256 * decode bytes

theorem encode_length (length value : Nat) : (encode length value).length = length := by
  induction length generalizing value with
  | zero => rfl
  | succ length inductionHypothesis =>
      rw [encode, List.length_cons, inductionHypothesis]

theorem decode_encode (length value : Nat) :
    decode (encode length value) = value % 256 ^ length := by
  induction length generalizing value with
  | zero =>
      rw [Nat.pow_zero, Nat.mod_one]
      rfl
  | succ length inductionHypothesis =>
      rw [encode, decode, inductionHypothesis, Nat.pow_succ', Nat.mod_mul, UInt8.toNat_ofNat']

/-- A 64-bit integer is what its eight bytes encode. -/
theorem decode_encode_uint64 (value : UInt64) :
    UInt64.ofNat (decode (encode 8 value.toNat)) = value := by
  have small : value.toNat < 256 ^ 8 := value.toNat_lt
  rw [decode_encode, Nat.mod_eq_of_lt small]
  exact UInt64.ofNat_toNat

/-! ### Signed integers -/

/-- A signed integer in two's complement -/
def encodeSigned (length : Nat) (value : Int) : List UInt8 :=
  encode length (value % 256 ^ length).toNat

def decodeSigned (bytes : List UInt8) : Int :=
  if 2 * decode bytes < 256 ^ bytes.length then
    decode bytes
  else
    (decode bytes : Int) - 256 ^ bytes.length

theorem encodeSigned_length (length : Nat) (value : Int) :
    (encodeSigned length value).length = length := encode_length length _

/-- A signed integer that fits in its bytes is what they encode. -/
theorem decodeSigned_encodeSigned (length : Nat) (value : Int)
    (lower : -(256 ^ length) ≤ 2 * value) (upper : 2 * value < 256 ^ length) :
    decodeSigned (encodeSigned length value) = value := by
  have modulus : (0 : Int) < 256 ^ length := by positivity
  have word : ((decode (encodeSigned length value) : Nat) : Int) = value % 256 ^ length := by
    have inside := Int.emod_lt_of_pos value modulus
    have natural := Int.toNat_of_nonneg (Int.emod_nonneg value (Int.ne_of_gt modulus))
    unfold encodeSigned
    rw [decode_encode, Nat.mod_eq_of_lt (by zify; rw [natural]; exact inside), natural]
  unfold decodeSigned
  rw [encodeSigned_length]
  have small : 2 * decode (encodeSigned length value) < 256 ^ length ↔
      2 * (value % 256 ^ length) < 256 ^ length := by
    rw [← word]
    norm_cast
  by_cases negative : value < 0
  · have shifted : value % 256 ^ length = value + 256 ^ length := by
      rw [← Int.add_emod_right, Int.emod_eq_of_lt (by omega) (by omega)]
    rw [shifted] at word small
    rw [if_neg (by rw [small]; omega), word]
    omega
  · have same : value % 256 ^ length = value := Int.emod_eq_of_lt (by omega) (by omega)
    rw [same] at word small
    rw [if_pos (small.mpr upper), word]

end LittleEndian
