import Mathlib.Data.Nat.Digits.Lemmas
import Mathlib.Order.Lattice

/-!
Contract: numbers written as digits, the most significant digit first.

Owns: the number that a list of digits denotes, the shortest digits of a number, its digits
behind zeros at a fixed width, and the agreement of the order on letters with the order on
numbers at one width.

Does **not** own: which letters a program writes for the digits. Every lemma about letters takes
a function that is strictly increasing on the digits.

## Why one width

A shorter text can stand above a longer one that denotes more, so order on texts follows
order on numbers only between texts of one length. There the first digit that differs decides
both, because what follows it is worth less than one unit of it.
-/

set_option autoImplicit false

namespace DiStore.Library.Decimal

/-- The number that digits denote. -/
def value (base : Nat) (digits : List Nat) : Nat := Nat.ofDigits base digits.reverse

/-- The shortest digits of a number; zero has one. -/
def digitsOf (base number : Nat) : List Nat :=
  if number = 0 then [0] else (Nat.digits base number).reverse

/-- The digits of a number behind as many zeros as the width asks for. -/
def padded (base width number : Nat) : List Nat :=
  List.replicate (width - (digitsOf base number).length) 0 ++ digitsOf base number

variable {base : Nat}

/-! ## Values -/

theorem value_cons (base digit : Nat) (rest : List Nat) :
    value base (digit :: rest) = digit * base ^ rest.length + value base rest := by
  unfold value
  rw [List.reverse_cons, Nat.ofDigits_append, Nat.ofDigits_singleton, List.length_reverse, Nat.mul_comm,
    Nat.add_comm]

theorem value_lt (large : 1 < base) {digits : List Nat} (areDigits : ∀ digit ∈ digits, digit < base) :
    value base digits < base ^ digits.length := by
  have bound := Nat.ofDigits_lt_base_pow_length (l := digits.reverse) large fun digit isMember =>
    areDigits digit (List.mem_reverse.mp isMember)
  rw [List.length_reverse] at bound
  exact bound

/-- Zeros in front add nothing. -/
theorem value_zeros_append (base count : Nat) (digits : List Nat) :
    value base (List.replicate count 0 ++ digits) = value base digits := by
  unfold value
  rw [List.reverse_append, List.reverse_replicate, Nat.ofDigits_append_replicate_zero]

/-! ## The digits of a number -/

theorem value_digitsOf (base number : Nat) : value base (digitsOf base number) = number := by
  unfold digitsOf
  by_cases isZero : number = 0
  · rw [if_pos isZero, isZero]
    rfl
  · rw [if_neg isZero]
    unfold value
    rw [List.reverse_reverse, Nat.ofDigits_digits]

theorem digitsOf_lt (large : 1 < base) (number : Nat) : ∀ digit ∈ digitsOf base number, digit < base := by
  intro digit isMember
  unfold digitsOf at isMember
  by_cases isZero : number = 0
  · rw [if_pos isZero, List.mem_singleton] at isMember
    rw [isMember]
    exact Nat.lt_trans Nat.one_pos large
  · rw [if_neg isZero, List.mem_reverse] at isMember
    exact Nat.digits_lt_base large isMember

theorem digitsOf_ne_nil (base number : Nat) : digitsOf base number ≠ [] := by
  unfold digitsOf
  by_cases isZero : number = 0
  · rw [if_pos isZero]
    exact List.cons_ne_nil _ _
  · rw [if_neg isZero]
    intro isNil
    exact isZero (Nat.digits_eq_nil_iff_eq_zero.mp (List.reverse_eq_nil_iff.mp isNil))

/-- A number below the powers of the base has few digits, and only such a number has. -/
theorem length_digitsOf_le_iff (large : 1 < base) {width : Nat} (hasRoom : 0 < width) (number : Nat) :
    (digitsOf base number).length ≤ width ↔ number < base ^ width := by
  unfold digitsOf
  by_cases isZero : number = 0
  · rw [if_pos isZero, isZero]
    have positive : 0 < base ^ width := Nat.pow_pos (Nat.lt_trans Nat.one_pos large)
    simp only [List.length_singleton]
    exact iff_of_true hasRoom positive
  · rw [if_neg isZero, List.length_reverse]
    exact Nat.digits_length_le_iff large number

/-! ## Padded digits -/

theorem length_padded (large : 1 < base) {width number : Nat} (hasRoom : 0 < width) (fits : number < base ^ width) :
    (padded base width number).length = width := by
  have short := (length_digitsOf_le_iff large hasRoom number).mpr fits
  unfold padded
  rw [List.length_append, List.length_replicate]
  omega

theorem value_padded (base width number : Nat) : value base (padded base width number) = number := by
  unfold padded
  rw [value_zeros_append, value_digitsOf]

theorem padded_lt (large : 1 < base) (width number : Nat) : ∀ digit ∈ padded base width number, digit < base := by
  intro digit isMember
  unfold padded at isMember
  rcases List.mem_append.mp isMember with isPadding | isDigit
  · rw [List.eq_of_mem_replicate isPadding]
    exact Nat.lt_trans Nat.one_pos large
  · exact digitsOf_lt large number digit isDigit

/-! ## Letters -/

section Letters

variable {α : Type} [LinearOrder α] {letter : Nat → α}

/-- **Order on letters is order on numbers** between texts of one length. The induction is on
the text; what follows a digit is worth less than one unit of it. -/
theorem map_lt_map_iff (large : 1 < base)
    (increasing : ∀ {digit other : Nat}, digit < other → other < base → letter digit < letter other)
    {left right : List Nat} (sameLength : left.length = right.length)
    (leftDigits : ∀ digit ∈ left, digit < base) (rightDigits : ∀ digit ∈ right, digit < base) :
    left.map letter < right.map letter ↔ value base left < value base right := by
  induction left generalizing right with
  | nil =>
      have isNil : right = [] := List.length_eq_zero_iff.mp sameLength.symm
      rw [isNil]
      simp
  | cons digit rest inductionHypothesis =>
      cases right with
      | nil => simp at sameLength
      | cons other others =>
          have restLength : rest.length = others.length := by simpa using sameLength
          have restDigits : ∀ digit ∈ rest, digit < base := fun digit isMember =>
            leftDigits digit (List.mem_cons_of_mem _ isMember)
          have othersDigits : ∀ digit ∈ others, digit < base := fun digit isMember =>
            rightDigits digit (List.mem_cons_of_mem _ isMember)
          have restBound := value_lt large restDigits
          have othersBound := value_lt large othersDigits
          have step := inductionHypothesis restLength restDigits othersDigits
          rw [restLength] at restBound
          rw [List.map_cons, List.map_cons, List.cons_lt_cons_iff, value_cons, value_cons, restLength, step]
          rcases Nat.lt_trichotomy digit other with below | same | above
          · have unit : (digit + 1) * base ^ others.length ≤ other * base ^ others.length :=
              Nat.mul_le_mul_right _ below
            have smaller := increasing below (rightDigits other (List.mem_cons_self ..))
            rw [Nat.succ_mul] at unit
            exact iff_of_true (.inl smaller) (by omega)
          · rw [same]
            simp
          · have unit : (other + 1) * base ^ others.length ≤ digit * base ^ others.length :=
              Nat.mul_le_mul_right _ above
            have larger := increasing above (leftDigits digit (List.mem_cons_self ..))
            rw [Nat.succ_mul] at unit
            apply iff_of_false
            · rintro (smaller | ⟨same, _⟩)
              · exact lt_asymm larger smaller
              · exact ne_of_gt larger same
            · omega

/-- Padded texts of one width are ordered as their numbers. -/
theorem map_padded_lt_iff (large : 1 < base)
    (increasing : ∀ {digit other : Nat}, digit < other → other < base → letter digit < letter other)
    {width number other : Nat} (hasRoom : 0 < width) (fits : number < base ^ width) (otherFits : other < base ^ width) :
    (padded base width number).map letter < (padded base width other).map letter ↔ number < other := by
  have sameLength : (padded base width number).length = (padded base width other).length := by
    rw [length_padded large hasRoom fits, length_padded large hasRoom otherFits]
  rw [map_lt_map_iff large increasing sameLength (padded_lt large width number) (padded_lt large width other),
    value_padded, value_padded]

end Letters

end DiStore.Library.Decimal
