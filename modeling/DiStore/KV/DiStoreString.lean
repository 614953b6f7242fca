import DiStore.Common.Bytes
import DiStore.Library.LexScan

/-!
Contract: the compact strings of the store.

Owns: the header and the bytes of `DiStoreString`, `make_string`, the six comparison operators,
`compare` with raw bytes, and when `compare` and the operators answer alike.

Does **not** own: `inplace_update`, and who keeps such strings.

## What `compare` misses

The operators compare all bytes. `compare` goes through `strncmp`, which stops at the first zero
byte that both texts have, and then goes by the lengths. The bytes behind that zero do not count.
-/

set_option autoImplicit false

namespace DiStore.KV

open DiStore.Library

/-- `DiStoreString`, with the header in front of the bytes. -/
structure DiStoreString where
  valid : Bool
  /-- fifteen bits -/
  length : Fin (2 ^ 15)
  content : Nat → UInt8

namespace DiStoreString

/-- `make_string` into a chunk: the length keeps fifteen bits, the bytes are all copied. -/
def makeString (chunk : DiStoreString) (bytes : Str) : DiStoreString where
  valid := true
  length := Fin.ofNat (2 ^ 15) bytes.length
  content := fun index => bytes.getD index (chunk.content index)

variable (left rhs : DiStoreString)

/-- The bound of the loops of the order operators. -/
def commonLength : Nat := min left.length.val rhs.length.val

/-- `operator==`. -/
def equal : Bool :=
  if left.length ≠ rhs.length then false
  else
    (compareLoop (fun byte other => if byte ≠ other then some false else none) left.content rhs.content
      left.length.val 0).getD true

/-- `operator!=`. -/
def notEqual : Bool := !left.equal rhs

/-- `operator<`. -/
def less : Bool :=
  (compareLoop (fun byte other => if byte > other then some false else if byte < other then some true else none)
    left.content rhs.content (left.commonLength rhs) 0).getD (left.length < rhs.length)

/-- `operator>`. -/
def greater : Bool :=
  (compareLoop (fun byte other => if byte > other then some true else if byte < other then some false else none)
    left.content rhs.content (left.commonLength rhs) 0).getD (left.length > rhs.length)

/-- `operator<=`. -/
def lessEqual : Bool :=
  (compareLoop (fun byte other => if byte < other then some true else if byte > other then some false else none)
    left.content rhs.content (left.commonLength rhs) 0).getD (left.length ≤ rhs.length)

/-- `operator>=`. -/
def greaterEqual : Bool :=
  (compareLoop (fun byte other => if byte > other then some true else if byte < other then some false else none)
    left.content rhs.content (left.commonLength rhs) 0).getD (left.length ≥ rhs.length)

/-- `size`. -/
def size : BitVec 64 := BitVec.ofNat 64 left.length.val

/-- `strncmp`, of which only the sign is specified: the first bytes that differ decide, and
nothing behind a zero byte is read. -/
def strncmp (chars other : Nat → UInt8) (bound : Nat) : Int :=
  (compareLoop (stopBody 0 fun byte other => (byte.toNat : Int) - other.toNat) chars other bound 0).getD 0

/-- `compare` with a pointer to bytes and their number. The difference of the sizes is unsigned
and narrowed to `int`. -/
def compare (bytes : Str) : Int :=
  let rSz := BitVec.ofNat 64 bytes.length
  let bound := min left.size.toNat rSz.toNat
  let ret := strncmp left.content (fun index => bytes.getD index 0) bound
  if ret ≠ 0 then ret else ((left.size - rSz).setWidth 32).toInt

/-! ## Strings that hold a text -/

/-- The string holds the text. -/
structure Holds (string : DiStoreString) (text : Str) : Prop where
  length : string.length.val = text.length
  content : IsAt string.content 0 text

/-- A text of at most fifteen bits of length is held. -/
theorem holds_makeString (chunk : DiStoreString) {bytes : Str} (fits : bytes.length ≤ 32767) :
    (makeString chunk bytes).Holds bytes where
  length := by
    have small : bytes.length < 2 ^ 15 := Nat.lt_succ_of_le fits
    exact Nat.mod_eq_of_lt small
  content := by
    intro offset byte isByte
    change bytes.getD (0 + offset) (chunk.content (0 + offset)) = byte
    rw [Nat.zero_add, List.getD_eq_getElem?_getD, isByte, Option.getD_some]

/-! ## The loops of the operators -/

/-- The tests of a loop body exclude each other, so their order does not matter. -/
theorem greaterFirst (onLess onGreater : Bool) (byte other : UInt8) :
    (if byte > other then some onGreater else if byte < other then some onLess else none) =
      if byte < other then some onLess else if other < byte then some onGreater else none := by
  rcases lt_trichotomy byte other with below | same | above
  · rw [if_neg (lt_asymm below), if_pos below, if_pos below]
  · simp only [same, gt_iff_lt, lt_irrefl, if_false]
  · rw [if_pos above, if_neg (lt_asymm above), if_pos above]

/-- A test for a difference is a comparison that returns alike on both sides. -/
theorem differFirst (byte other : UInt8) :
    (if byte ≠ other then some false else none) =
      if byte < other then some false else if other < byte then some false else none := by
  rcases lt_trichotomy byte other with below | same | above
  · rw [if_pos (ne_of_lt below), if_pos below]
  · rw [same, if_neg (not_not.mpr rfl), if_neg (lt_irrefl other), if_neg (lt_irrefl other)]
  · rw [if_pos (ne_of_gt above), if_neg (lt_asymm above), if_pos above]

section Operators

variable {left rhs : DiStoreString} {a b : Str} (leftHolds : left.Holds a) (rhsHolds : rhs.Holds b)

include leftHolds rhsHolds

/-- An order operator answers by the first difference, and by the lengths without one. -/
theorem operator_eq {body : UInt8 → UInt8 → Option Bool} {onLess onGreater : Bool}
    (decides : ∀ byte other, body byte other =
      if byte < other then some onLess else if other < byte then some onGreater else none) (atEnd : Bool) :
    (compareLoop body left.content rhs.content (left.commonLength rhs) 0).getD atEnd =
      (exitOf onLess onGreater (commonOrder a b)).getD atEnd := by
  unfold commonLength
  rw [leftHolds.length, rhsHolds.length, compareLoop_eq_exitOf decides leftHolds.content rhsHolds.content]

theorem decide_length_lt : decide (left.length < rhs.length) = decide (a.length < b.length) := by
  simp only [Fin.lt_def, leftHolds.length, rhsHolds.length]

theorem decide_length_le : decide (left.length ≤ rhs.length) = decide (a.length ≤ b.length) := by
  simp only [Fin.le_def, leftHolds.length, rhsHolds.length]

theorem equal_iff : left.equal rhs = true ↔ a = b := by
  unfold equal
  rw [eq_iff_commonOrder]
  by_cases sameLength : left.length = rhs.length
  · have lengths : a.length = b.length := by rw [← leftHolds.length, ← rhsHolds.length, sameLength]
    have bound : left.length.val = left.commonLength rhs := by
      unfold commonLength
      rw [sameLength, min_self]
    rw [if_neg (not_not.mpr sameLength), bound, operator_eq leftHolds rhsHolds differFirst true]
    cases commonOrder a b <;> simp [exitOf, lengths]
  · have lengths : a.length ≠ b.length := by
      rw [← leftHolds.length, ← rhsHolds.length]
      exact fun same => sameLength (Fin.ext same)
    rw [if_pos sameLength]
    simp [lengths]

theorem less_iff : left.less rhs = true ↔ a < b := by
  unfold less
  rw [operator_eq leftHolds rhsHolds (greaterFirst true false), lt_iff_commonOrder,
    decide_length_lt leftHolds rhsHolds]
  cases commonOrder a b <;> simp [exitOf]

theorem greater_iff : left.greater rhs = true ↔ b < a := by
  unfold greater
  rw [operator_eq leftHolds rhsHolds (greaterFirst false true), gt_iff_commonOrder,
    decide_length_lt rhsHolds leftHolds]
  cases commonOrder a b <;> simp [exitOf]

theorem lessEqual_iff : left.lessEqual rhs = true ↔ a ≤ b := by
  unfold lessEqual
  rw [operator_eq leftHolds rhsHolds (fun _ _ => rfl), (not_lt.symm : a ≤ b ↔ ¬ b < a), gt_iff_commonOrder,
    decide_length_le leftHolds rhsHolds]
  cases commonOrder a b <;> simp [exitOf]

theorem greaterEqual_iff : left.greaterEqual rhs = true ↔ b ≤ a := by
  unfold greaterEqual
  rw [operator_eq leftHolds rhsHolds (greaterFirst false true), (not_lt.symm : b ≤ a ↔ ¬ a < b), lt_iff_commonOrder,
    decide_length_le rhsHolds leftHolds]
  cases commonOrder a b <;> simp [exitOf]

end Operators

/-! ## The comparison with raw bytes -/

/-- The difference of two small sizes survives the wrapping and the narrowing. -/
theorem toInt_narrowed {size other : Nat} (small : size ≤ 32767) (otherSmall : other ≤ 32767) :
    ((BitVec.ofNat 64 size - BitVec.ofNat 64 other).setWidth 32).toInt = (size : Int) - other := by
  rw [BitVec.toInt_eq_toNat_cond, BitVec.toNat_setWidth, BitVec.toNat_sub, BitVec.toNat_ofNat, BitVec.toNat_ofNat]
  omega

/-- `strncmp` has the sign of the order on the common length, unless it stops at a zero byte. -/
theorem strncmp_spec {chars other : Nat → UInt8} {a b : Str} (charsAt : IsAt chars 0 a) (otherAt : IsAt other 0 b) :
    (StopsAt 0 a b → strncmp chars other (min a.length b.length) = 0) ∧
      (¬ StopsAt 0 a b → (strncmp chars other (min a.length b.length) < 0 ↔ commonOrder a b = .lt) ∧
        (0 < strncmp chars other (min a.length b.length) ↔ commonOrder a b = .gt)) := by
  apply compareLoop_stopBody
  · intro byte other
    rw [UInt8.lt_iff_toNat_lt]
    omega
  · intro byte other
    rw [UInt8.lt_iff_toNat_lt]
    omega
  · exact charsAt
  · exact otherAt

/-- A result with the sign of the order on the common length, and the lengths without one. -/
theorem sign_with_lengths {ret : Int} {a b : Str} (below : ret < 0 ↔ commonOrder a b = .lt)
    (above : 0 < ret ↔ commonOrder a b = .gt) :
    ((if ret ≠ 0 then ret else (a.length : Int) - b.length) < 0 ↔ a < b) ∧
      (0 < (if ret ≠ 0 then ret else (a.length : Int) - b.length) ↔ b < a) := by
  rw [lt_iff_commonOrder, gt_iff_commonOrder]
  cases order : commonOrder a b with
  | lt =>
      have negative := below.mpr order
      rw [if_pos (Int.ne_of_lt negative)]
      exact ⟨iff_of_true negative (.inl rfl), iff_of_false (Int.not_lt.mpr (Int.le_of_lt negative)) (by simp)⟩
  | gt =>
      have positive := above.mpr order
      rw [if_pos (Int.ne_of_gt positive)]
      exact ⟨iff_of_false (Int.not_lt.mpr (Int.le_of_lt positive)) (by simp), iff_of_true positive (.inl rfl)⟩
  | eq =>
      have notBelow : ¬ ret < 0 := fun negative => by cases order.symm.trans (below.mp negative)
      have notAbove : ¬ 0 < ret := fun positive => by cases order.symm.trans (above.mp positive)
      have isZero : ret = 0 := by omega
      rw [if_neg (not_not.mpr isZero)]
      simp only [reduceCtorEq, false_or, true_and]
      omega

/-- `compare` goes by the lengths when `strncmp` stops at a zero byte, and has the sign of the
order otherwise. -/
theorem compare_spec {left : DiStoreString} {a b : Str} (leftHolds : left.Holds a) (bFits : b.length ≤ 32767) :
    (StopsAt 0 a b → left.compare b = (a.length : Int) - b.length) ∧
      (¬ StopsAt 0 a b → (left.compare b < 0 ↔ a < b) ∧ (0 < left.compare b ↔ b < a)) := by
  have aFits : a.length ≤ 32767 := by
    have isShort := left.length.isLt
    have isLength := leftHolds.length
    omega
  have sizeIs : left.size = BitVec.ofNat 64 a.length := by
    unfold size
    rw [leftHolds.length]
  have bound : min left.size.toNat (BitVec.ofNat 64 b.length).toNat = min a.length b.length := by
    rw [sizeIs, BitVec.toNat_ofNat, BitVec.toNat_ofNat]
    omega
  have bytesAt : IsAt (fun index => b.getD index 0) 0 b := by
    intro offset byte isByte
    change b.getD (0 + offset) 0 = byte
    rw [Nat.zero_add, List.getD_eq_getElem?_getD, isByte, Option.getD_some]
  have ⟨stopped, unstopped⟩ := strncmp_spec leftHolds.content bytesAt
  unfold compare
  simp only [bound]
  rw [sizeIs, toInt_narrowed aFits bFits]
  refine ⟨fun stops => ?_, fun goesOn => ?_⟩
  · rw [stopped stops, if_neg (not_not.mpr rfl)]
  · have ⟨below, above⟩ := unstopped goesOn
    exact sign_with_lengths below above

/-- `compare` is negative, zero or positive as the operators have it. -/
def CompareAgrees (left rhs : DiStoreString) (bytes : Str) : Prop :=
  (left.compare bytes < 0 ↔ left.less rhs = true) ∧ (left.compare bytes = 0 ↔ left.equal rhs = true) ∧
    (0 < left.compare bytes ↔ left.greater rhs = true)

/-- The lengths of two texts stand in the order of the texts. -/
def LengthsAgree (a b : Str) : Prop := (a.length < b.length ↔ a < b) ∧ (b.length < a.length ↔ b < a)

theorem compareAgrees_iff {left rhs : DiStoreString} {a b : Str} (leftHolds : left.Holds a) (rhsHolds : rhs.Holds b)
    (bFits : b.length ≤ 32767) : CompareAgrees left rhs b ↔ ¬ StopsAt 0 a b ∨ LengthsAgree a b := by
  have ⟨stopped, unstopped⟩ := compare_spec leftHolds bFits
  have trichotomy : a = b ↔ ¬ a < b ∧ ¬ b < a := by
    rw [not_lt, not_lt, le_antisymm_iff]
    exact and_comm
  have zero : left.compare b = 0 ↔ ¬ left.compare b < 0 ∧ ¬ 0 < left.compare b := by omega
  unfold CompareAgrees LengthsAgree
  rw [less_iff leftHolds rhsHolds, equal_iff leftHolds rhsHolds, greater_iff leftHolds rhsHolds]
  by_cases stops : StopsAt 0 a b
  · have byLength : (left.compare b < 0 ↔ a.length < b.length) ∧ (0 < left.compare b ↔ b.length < a.length) := by
      rw [stopped stops]
      omega
    rw [trichotomy, zero, byLength.1, byLength.2]
    constructor
    · rintro ⟨lengthLess, _, lengthGreater⟩
      exact .inr ⟨lengthLess, lengthGreater⟩
    · rintro (goesOn | ⟨lengthLess, lengthGreater⟩)
      · exact absurd stops goesOn
      · exact ⟨lengthLess, and_congr (not_congr lengthLess) (not_congr lengthGreater), lengthGreater⟩
  · have ⟨negative, positive⟩ := unstopped stops
    rw [trichotomy, zero, negative, positive]
    exact iff_of_true ⟨Iff.rfl, Iff.rfl, Iff.rfl⟩ (.inl stops)

/-- **The operators decide the order of the texts**, and `compare` agrees with them unless both
texts have a zero byte before their first difference and lengths in another order. -/
theorem operators_and_compare (chunk other : DiStoreString) {a b : Str} (aFits : a.length ≤ 32767)
    (bFits : b.length ≤ 32767) :
    let left := makeString chunk a
    let rhs := makeString other b
    ((left.equal rhs = true ↔ a = b) ∧ (left.notEqual rhs = true ↔ a ≠ b) ∧ (left.less rhs = true ↔ a < b) ∧
      (left.greater rhs = true ↔ b < a) ∧ (left.lessEqual rhs = true ↔ a ≤ b) ∧
      (left.greaterEqual rhs = true ↔ b ≤ a)) ∧
    (CompareAgrees left rhs b ↔ ¬ StopsAt 0 a b ∨ LengthsAgree a b) := by
  intro left rhs
  have leftHolds := holds_makeString chunk aFits
  have rhsHolds := holds_makeString other bFits
  have equalIff := equal_iff leftHolds rhsHolds
  have notEqualIff : left.notEqual rhs = true ↔ a ≠ b := by
    change (!left.equal rhs) = true ↔ a ≠ b
    rw [Bool.not_eq_true', Bool.eq_false_iff, ne_eq, equalIff]
  exact ⟨⟨equalIff, notEqualIff, less_iff leftHolds rhsHolds, greater_iff leftHolds rhsHolds,
    lessEqual_iff leftHolds rhsHolds, greaterEqual_iff leftHolds rhsHolds⟩,
    compareAgrees_iff leftHolds rhsHolds bFits⟩

/-- A chunk of zeros. -/
def zeroChunk : DiStoreString := ⟨false, 0, fun _ => 0⟩

/-- `compare` calls two texts equal that differ behind a zero byte. -/
theorem compare_misses_difference :
    (makeString zeroChunk [0, 1]).compare [0, 2] = 0 ∧
      (makeString zeroChunk [0, 1]).less (makeString zeroChunk [0, 2]) = true ∧
      ¬ CompareAgrees (makeString zeroChunk [0, 1]) (makeString zeroChunk [0, 2]) [0, 2] := by
  have isZero : (makeString zeroChunk [0, 1]).compare [0, 2] = 0 := by decide
  have isLess : (makeString zeroChunk [0, 1]).less (makeString zeroChunk [0, 2]) = true := by decide
  refine ⟨isZero, isLess, fun agrees => ?_⟩
  have negative := agrees.1.mpr isLess
  rw [isZero] at negative
  exact absurd negative (by decide)

/-- Two texts without a zero byte. -/
theorem operators_and_compare_letters :
    CompareAgrees (makeString zeroChunk [97, 98]) (makeString zeroChunk [97]) [97] :=
  (operators_and_compare zeroChunk zeroChunk (by decide : ([97, 98] : Str).length ≤ 32767)
    (by decide : ([97] : Str).length ≤ 32767)).2.mpr (.inr ⟨by decide, by decide⟩)

end DiStoreString

end DiStore.KV
