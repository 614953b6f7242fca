import DiStore.Common.Bytes
import DiStore.Library.Decimal

/-!
Contract: decimal texts.

Owns: the letters `'0'` to `'9'`, `std::to_string` of an unsigned number, and the number that a
run of such letters denotes.

Does **not** own: the parsers that accept such runs.
-/

set_option autoImplicit false

namespace DiStore

open DiStore.Library

/-- The letter of a decimal digit. -/
def digitLetter (digit : Nat) : UInt8 := UInt8.ofNat (48 + digit)

/-- `'0' <= letter && letter <= '9'`. -/
def isDigitLetter (letter : UInt8) : Bool := 48 ≤ letter && letter ≤ 57

/-- `letter - '0'`. -/
def digitOf (letter : UInt8) : Nat := letter.toNat - 48

/-- `std::to_string`. -/
def toString (number : Nat) : Str := (Decimal.digitsOf 10 number).map digitLetter

/-- The number that letters denote. -/
def numberOf (text : Str) : Nat := Decimal.value 10 (text.map digitOf)

theorem toNat_digitLetter {digit : Nat} (isDecimal : digit < 10) : (digitLetter digit).toNat = 48 + digit := by
  have small : 48 + digit < 256 := by omega
  unfold digitLetter
  rw [UInt8.toNat_ofNat']
  exact Nat.mod_eq_of_lt small

theorem digitLetter_increasing {digit other : Nat} (less : digit < other) (isDecimal : other < 10) :
    digitLetter digit < digitLetter other := by
  have smaller : digit < 10 := Nat.lt_trans less isDecimal
  rw [UInt8.lt_iff_toNat_lt, toNat_digitLetter smaller, toNat_digitLetter isDecimal]
  omega

theorem isDigitLetter_iff (letter : UInt8) : isDigitLetter letter = true ↔ 48 ≤ letter.toNat ∧ letter.toNat ≤ 57 := by
  unfold isDigitLetter
  rw [Bool.and_eq_true, decide_eq_true_iff, decide_eq_true_iff, UInt8.le_iff_toNat_le, UInt8.le_iff_toNat_le]
  exact Iff.rfl

/-! ## Reading a number back -/

theorem isDigitLetter_digitLetter {digit : Nat} (isDecimal : digit < 10) : isDigitLetter (digitLetter digit) = true := by
  rw [isDigitLetter_iff, toNat_digitLetter isDecimal]
  omega

theorem digitOf_digitLetter {digit : Nat} (isDecimal : digit < 10) : digitOf (digitLetter digit) = digit := by
  unfold digitOf
  rw [toNat_digitLetter isDecimal, Nat.add_sub_cancel_left]

theorem toString_isDigitLetter (number : Nat) : ∀ letter ∈ toString number, isDigitLetter letter = true := by
  intro letter isMember
  rcases List.mem_map.mp isMember with ⟨digit, isDecimal, isLetter⟩
  rw [← isLetter]
  exact isDigitLetter_digitLetter (Decimal.digitsOf_lt (by decide) number digit isDecimal)

theorem toString_ne_nil (number : Nat) : toString number ≠ [] := by
  intro isNil
  exact Decimal.digitsOf_ne_nil 10 number (List.map_eq_nil_iff.mp isNil)

theorem length_toString_le_iff {width : Nat} (hasRoom : 0 < width) (number : Nat) :
    (toString number).length ≤ width ↔ number < 10 ^ width := by
  unfold toString
  rw [List.length_map]
  exact Decimal.length_digitsOf_le_iff (by decide) hasRoom number

theorem numberOf_toString (number : Nat) : numberOf (toString number) = number := by
  have sameDigits : (toString number).map digitOf = Decimal.digitsOf 10 number := by
    have readBack : ∀ digit ∈ Decimal.digitsOf 10 number, (digitOf ∘ digitLetter) digit = id digit :=
      fun digit isMember => digitOf_digitLetter (Decimal.digitsOf_lt (by decide) number digit isMember)
    unfold toString
    rw [List.map_map, List.map_congr_left readBack, List.map_id]
  unfold numberOf
  rw [sameDigits, Decimal.value_digitsOf]

end DiStore
