import Mathlib.Algebra.Group.Int.Defs
import Mathlib.Algebra.Group.Nat.Defs
import Mathlib.Data.List.Lex
import Mathlib.Order.Lattice

/-!
Contract: byte strings and the fixed sixteen-byte arrays of a record.

Owns:
- the order on `std::string` values (`char_traits<char>::compare` is unsigned
  and lexicographic, shorter strings first on a tie);
- the sixteen-byte array type, whose length is part of the type;
- `memcpy` into such an array and the byte-exact mix of two arrays that a
  transfer ending inside one of them leaves behind.
-/

set_option autoImplicit false

namespace DiStore

/-- Core already orders `UInt8`; this only packages those facts. -/
instance byteOrder : LinearOrder UInt8 where
  le_refl := UInt8.le_refl
  le_trans _ _ _ := UInt8.le_trans
  le_antisymm _ _ := UInt8.le_antisymm
  le_total := UInt8.le_total
  lt_iff_le_not_ge left right := by
    rw [UInt8.not_le]
    constructor
    · intro less
      exact ⟨UInt8.le_of_lt less, less⟩
    · exact And.right
  toDecidableLE := inferInstance
  toDecidableLT := inferInstance
  toDecidableEq := inferInstance

/-- A `std::string`: its bytes. -/
abbrev Str := List UInt8

/-- The lexicographic order of core with the comparisons the definitions run. -/
instance : LinearOrder Str where
  le_refl := le_refl (α := List UInt8)
  le_trans := fun _ _ _ => le_trans (α := List UInt8)
  le_antisymm := fun _ _ => le_antisymm (α := List UInt8)
  le_total := le_total (α := List UInt8)
  lt_iff_le_not_ge := fun _ _ => lt_iff_le_not_ge (α := List UInt8)
  toDecidableLE := fun left right => inferInstanceAs (Decidable (@LE.le (List UInt8) _ left right))
  toDecidableLT := List.decidableLT
  toDecidableEq := instDecidableEqList
  compare := fun left right => compareOfLessAndEq left right
  compare_eq_compareOfLessAndEq := fun _ _ => rfl

/-- `DataLayer::Constants::KEYLEN` (and `VALLEN`, which equals it). -/
abbrev keyLen : Nat := 16

/-- A `byte_t[KEYLEN]` array, and the strings that fill one exactly. -/
abbrev Bytes16 := { bytes : Str // bytes.length = keyLen }

namespace Bytes16

/-- An array of equal bytes; the content of zeroed memory at `fill 0`. -/
def fill (byte : UInt8) : Bytes16 :=
  ⟨List.replicate keyLen byte, List.length_replicate⟩

instance : Inhabited Bytes16 := ⟨fill 0⟩

/-- `memcpy(array, text.c_str(), text.size())`: the bytes past the text keep
their old value. A text longer than the array would overrun it; only the part
inside the array is modelled. -/
def memcpy (text : Str) (array : Bytes16) : Bytes16 :=
  ⟨(text ++ array.val.drop text.length).take keyLen, by
    have arrayLength := array.property
    simp only [List.length_take, List.length_append, List.length_drop]
    omega⟩

/-- The first `count` bytes of `source` over those of `target`. -/
def overlay (count : Nat) (source target : Bytes16) : Bytes16 :=
  ⟨source.val.take count ++ target.val.drop count, by
    have sourceLength := source.property
    have targetLength := target.property
    simp only [List.length_append, List.length_take, List.length_drop]
    omega⟩

@[simp] theorem memcpy_full (text array : Bytes16) : memcpy text.val array = text := by
  apply Subtype.ext
  have textLength := text.property
  simp [memcpy, textLength]

@[simp] theorem overlay_self (count : Nat) (array : Bytes16) : overlay count array array = array :=
  Subtype.ext (List.take_append_drop count array.val)

@[simp] theorem overlay_overlay (count : Nat) (source middle target : Bytes16) :
    overlay count (overlay count source middle) target = overlay count source target := by
  apply Subtype.ext
  have sourceLength := source.property
  have middleLength := middle.property
  simp only [overlay, List.take_append, List.take_take, min_self, List.length_take]
  rcases le_total count keyLen with short | long
  · rw [show count - min count source.val.length = 0 by omega, List.take_zero, List.append_nil]
  · rw [List.drop_eq_nil_of_le (show middle.val.length ≤ count by omega), List.take_nil, List.append_nil]

/-- Sixteen-byte strings are never the empty string of an unset anchor. -/
theorem ne_nil (text : Bytes16) : text.val ≠ [] := by
  intro isNil
  have textLength := text.property
  simp [isNil] at textLength

end Bytes16

end DiStore
