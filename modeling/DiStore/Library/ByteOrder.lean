import Mathlib.Algebra.Group.Nat.Defs

/-!
Contract: numbers as fixed numbers of bytes, the low byte first, and the exchange of their bytes.

Owns: `littleBytes`, `ofLittle` and their two round trips, and `byteSwap`, which is its own inverse on
words of whole bytes.

Does not own: the order in which a machine keeps its words.
-/

set_option autoImplicit false

namespace DiStore.Library

/-- The low `width` bytes of a number. -/
def littleBytes : Nat → Nat → List UInt8
  | 0, _ => []
  | width + 1, number => UInt8.ofNat number :: littleBytes width (number / 256)

def ofLittle : List UInt8 → Nat
  | [] => 0
  | byte :: bytes => byte.toNat + 256 * ofLittle bytes

@[simp] theorem length_littleBytes (width number : Nat) : (littleBytes width number).length = width := by
  induction width generalizing number with
  | zero => rfl
  | succ width inductionHypothesis =>
    unfold littleBytes
    rw [List.length_cons, inductionHypothesis]

theorem ofLittle_littleBytes (width number : Nat) : ofLittle (littleBytes width number) = number % 256 ^ width := by
  induction width generalizing number with
  | zero =>
    rw [Nat.pow_zero, Nat.mod_one]
    rfl
  | succ width inductionHypothesis =>
    have low : (UInt8.ofNat number).toNat = number % 256 := by simp
    unfold littleBytes ofLittle
    rw [inductionHypothesis, low, Nat.pow_succ, Nat.mul_comm (256 ^ width) 256, Nat.mod_mul]

theorem littleBytes_ofLittle (bytes : List UInt8) : littleBytes bytes.length (ofLittle bytes) = bytes := by
  induction bytes with
  | nil => rfl
  | cons byte bytes inductionHypothesis =>
    have small : byte.toNat < 256 := byte.toNat_lt
    have rest : (byte.toNat + 256 * ofLittle bytes) / 256 = ofLittle bytes := by omega
    have low : UInt8.ofNat (byte.toNat + 256 * ofLittle bytes) = byte := by
      apply UInt8.toNat_inj.mp
      simp
    rw [List.length_cons]
    unfold ofLittle littleBytes
    rw [rest, low, inductionHypothesis]

theorem ofLittle_lt (bytes : List UInt8) : ofLittle bytes < 256 ^ bytes.length := by
  have same := ofLittle_littleBytes bytes.length (ofLittle bytes)
  rw [littleBytes_ofLittle] at same
  rw [same]
  exact Nat.mod_lt _ (Nat.pow_pos (by decide))

section Words

variable {bits : Nat}

/-- The word whose bytes are those of `word` in the other order. -/
def byteSwap (word : BitVec bits) : BitVec bits :=
  BitVec.ofNat bits (ofLittle (littleBytes (bits / 8) word.toNat).reverse)

variable (whole : bits % 8 = 0)

include whole

theorem pow_bytes : 256 ^ (bits / 8) = 2 ^ bits := by
  have isBits : 8 * (bits / 8) = bits := by omega
  have base : (256 : Nat) = 2 ^ 8 := by decide
  rw [base, ← Nat.pow_mul, isBits]

theorem ofNat_ofLittle_littleBytes (word : BitVec bits) :
    BitVec.ofNat bits (ofLittle (littleBytes (bits / 8) word.toNat)) = word := by
  apply BitVec.eq_of_toNat_eq
  rw [ofLittle_littleBytes, pow_bytes whole, BitVec.toNat_ofNat, Nat.mod_mod, Nat.mod_eq_of_lt word.isLt]

theorem littleBytes_byteSwap (word : BitVec bits) :
    littleBytes (bits / 8) (byteSwap word).toNat = (littleBytes (bits / 8) word.toNat).reverse := by
  have length : (littleBytes (bits / 8) word.toNat).reverse.length = bits / 8 := by simp
  have below := ofLittle_lt (littleBytes (bits / 8) word.toNat).reverse
  rw [length, pow_bytes whole] at below
  have bytes := littleBytes_ofLittle (littleBytes (bits / 8) word.toNat).reverse
  rw [length] at bytes
  unfold byteSwap
  rw [BitVec.toNat_ofNat, Nat.mod_eq_of_lt below, bytes]

@[simp] theorem byteSwap_byteSwap (word : BitVec bits) : byteSwap (byteSwap word) = word := by
  have again : byteSwap (byteSwap word) =
      BitVec.ofNat bits (ofLittle (littleBytes (bits / 8) (byteSwap word).toNat).reverse) := rfl
  rw [again, littleBytes_byteSwap whole, List.reverse_reverse, ofNat_ofLittle_littleBytes whole]

end Words

end DiStore.Library
