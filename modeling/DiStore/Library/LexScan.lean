import Mathlib.Data.List.Infix
import Mathlib.Data.List.Lex
import Mathlib.Order.Lattice

/-!
Contract: loops that compare two arrays letter by letter.

Owns: a loop whose body returns or goes on, the order of two lists on their common length, how it
and the lengths decide the lexicographic order, and what a loop that also stops at a marked letter
misses.

Does **not** own: the arrays, which are functions from an index, and the bodies.

## Two questions for one loop

On the common length the first letters that differ decide. Only when there are none do the
lengths. A loop that gives up at a marked letter leaves the decision to the lengths too early.
-/

set_option autoImplicit false

namespace DiStore.Library

variable {α β : Type}

/-- `for (i = index; i < index + remaining; i++)` over a body that returns or goes on. -/
def compareLoop (body : α → α → Option β) (left right : Nat → α) : Nat → Nat → Option β
  | 0, _ => none
  | remaining + 1, index => (body (left index) (right index)).or (compareLoop body left right remaining (index + 1))

/-- A text stands in an array from an index on. -/
def IsAt (cell : Nat → α) (index : Nat) (text : List α) : Prop :=
  ∀ offset letter, text[offset]? = some letter → cell (index + offset) = letter

theorem isAt_cons {cell : Nat → α} {index : Nat} {letter : α} {text : List α}
    (isAt : IsAt cell index (letter :: text)) : cell index = letter ∧ IsAt cell (index + 1) text := by
  refine ⟨isAt 0 letter rfl, fun offset other isOther => ?_⟩
  have shifted := isAt (offset + 1) other isOther
  rw [Nat.add_right_comm]
  exact shifted

section Order

variable [LinearOrder α]

/-- The order of two texts on their common length. -/
def commonOrder : List α → List α → Ordering
  | letter :: left, other :: right =>
      if letter < other then .lt else if other < letter then .gt else commonOrder left right
  | _, _ => .eq

theorem commonOrder_cons (letter other : α) (a b : List α) :
    commonOrder (letter :: a) (other :: b) =
      if letter < other then .lt else if other < letter then .gt else commonOrder a b := rfl

/-- The exit of a loop that compares: nothing when it has seen no difference. -/
def exitOf (onLess onGreater : β) : Ordering → Option β
  | .lt => some onLess
  | .gt => some onGreater
  | .eq => none

/-- A loop that returns at the first difference. -/
theorem compareLoop_eq_exitOf {body : α → α → Option β} {onLess onGreater : β}
    (decides : ∀ letter other, body letter other =
      if letter < other then some onLess else if other < letter then some onGreater else none)
    {left right : Nat → α} {index : Nat} {a b : List α} (leftIs : IsAt left index a) (rightIs : IsAt right index b) :
    compareLoop body left right (min a.length b.length) index = exitOf onLess onGreater (commonOrder a b) := by
  induction a generalizing index b with
  | nil =>
      rw [List.length_nil, Nat.zero_min]
      rfl
  | cons letter a inductionHypothesis =>
      cases b with
      | nil => rfl
      | cons other b =>
          have ⟨isLetter, leftRest⟩ := isAt_cons leftIs
          have ⟨isOther, rightRest⟩ := isAt_cons rightIs
          rw [List.length_cons, List.length_cons, Nat.succ_min_succ]
          unfold compareLoop
          rw [commonOrder_cons, isLetter, isOther, decides, inductionHypothesis leftRest rightRest]
          by_cases less : letter < other
          · rw [if_pos less, if_pos less]
            rfl
          · rw [if_neg less, if_neg less]
            by_cases greater : other < letter
            · rw [if_pos greater, if_pos greater]
              rfl
            · rw [if_neg greater, if_neg greater]
              rfl

theorem commonOrder_swap (a b : List α) : commonOrder b a = (commonOrder a b).swap := by
  induction a generalizing b with
  | nil => cases b <;> rfl
  | cons letter a inductionHypothesis =>
      cases b with
      | nil => rfl
      | cons other b =>
          rw [commonOrder_cons, commonOrder_cons]
          rcases lt_trichotomy letter other with less | same | greater
          · rw [if_pos less, if_neg (lt_asymm less), if_pos less]
            rfl
          · simp only [same, lt_irrefl, if_false]
            exact inductionHypothesis b
          · rw [if_pos greater, if_neg (lt_asymm greater), if_pos greater]
            rfl

/-- The lengths decide when the common length does not. -/
theorem lt_iff_commonOrder (a b : List α) :
    a < b ↔ commonOrder a b = .lt ∨ commonOrder a b = .eq ∧ a.length < b.length := by
  induction a generalizing b with
  | nil => cases b <;> simp [commonOrder]
  | cons letter a inductionHypothesis =>
      cases b with
      | nil => simp [commonOrder]
      | cons other b =>
          rw [List.cons_lt_cons_iff, inductionHypothesis, List.length_cons, List.length_cons, Nat.succ_lt_succ_iff,
            commonOrder_cons]
          rcases lt_trichotomy letter other with less | same | greater
          · rw [if_pos less]
            exact iff_of_true (.inl less) (.inl rfl)
          · rw [same, if_neg (lt_irrefl other)]
            simp
          · rw [if_neg (lt_asymm greater), if_pos greater]
            apply iff_of_false
            · rintro (less | ⟨same, _⟩)
              · exact lt_asymm less greater
              · exact ne_of_gt greater same
            · rintro (less | ⟨same, _⟩)
              · cases less
              · cases same

theorem gt_iff_commonOrder (a b : List α) :
    b < a ↔ commonOrder a b = .gt ∨ commonOrder a b = .eq ∧ b.length < a.length := by
  rw [lt_iff_commonOrder, commonOrder_swap a b, Ordering.swap_eq_lt, Ordering.swap_eq_eq]

theorem eq_iff_commonOrder (a b : List α) : a = b ↔ commonOrder a b = .eq ∧ a.length = b.length := by
  constructor
  · intro same
    rw [same]
    refine ⟨?_, rfl⟩
    cases order : commonOrder b b with
    | eq => rfl
    | lt => exact absurd ((lt_iff_commonOrder b b).mpr (.inl order)) (List.lt_irrefl b)
    | gt => exact absurd ((gt_iff_commonOrder b b).mpr (.inl order)) (List.lt_irrefl b)
  · rintro ⟨order, sameLength⟩
    have notLess : ¬ a < b := by
      rw [lt_iff_commonOrder, order, sameLength]
      simp
    have notGreater : ¬ b < a := by
      rw [gt_iff_commonOrder, order, sameLength]
      simp
    exact le_antisymm (not_lt.mp notGreater) (not_lt.mp notLess)

end Order

/-! ### A marked letter -/

/-- The texts agree up to a marked letter and on it. -/
def StopsAt (marked : α) (a b : List α) : Prop := ∃ before, before ++ [marked] <+: a ∧ before ++ [marked] <+: b

theorem not_stopsAt_nil (marked : α) (b : List α) : ¬ StopsAt marked [] b := by
  rintro ⟨before, inLeft, _⟩
  simp at inLeft

theorem not_stopsAt_nil_right (marked : α) (a : List α) : ¬ StopsAt marked a [] := by
  rintro ⟨before, _, inRight⟩
  simp at inRight

theorem stopsAt_cons_iff {marked letter other : α} {a b : List α} :
    StopsAt marked (letter :: a) (other :: b) ↔ letter = other ∧ (letter = marked ∨ StopsAt marked a b) := by
  constructor
  · rintro ⟨before, inLeft, inRight⟩
    cases before with
    | nil =>
        have isLetter := (List.cons_prefix_cons.mp inLeft).1
        have isOther := (List.cons_prefix_cons.mp inRight).1
        exact ⟨isLetter.symm.trans isOther, .inl isLetter.symm⟩
    | cons first before =>
        have ⟨isLetter, inLeft⟩ := List.cons_prefix_cons.mp inLeft
        have ⟨isOther, inRight⟩ := List.cons_prefix_cons.mp inRight
        exact ⟨isLetter.symm.trans isOther, .inr ⟨before, inLeft, inRight⟩⟩
  · rintro ⟨same, isMarked | ⟨before, inLeft, inRight⟩⟩
    · rw [← same, isMarked]
      exact ⟨[], List.cons_prefix_cons.mpr ⟨rfl, List.nil_prefix⟩, List.cons_prefix_cons.mpr ⟨rfl, List.nil_prefix⟩⟩
    · exact ⟨letter :: before, List.cons_prefix_cons.mpr ⟨rfl, inLeft⟩, List.cons_prefix_cons.mpr ⟨same, inRight⟩⟩

section Stops

variable [LinearOrder α] {marked : α} {difference : α → α → Int}

/-- One step of a loop that returns the difference of two letters, and zero at a marked letter. -/
def stopBody (marked : α) (difference : α → α → Int) (letter other : α) : Option Int :=
  if letter ≠ other then some (difference letter other) else if letter = marked then some 0 else none

/-- The loop has the sign of the order on the common length, unless it stops before. The
induction is on the left text. -/
theorem compareLoop_stopBody (negative : ∀ letter other, difference letter other < 0 ↔ letter < other)
    (positive : ∀ letter other, 0 < difference letter other ↔ other < letter) {left right : Nat → α} {index : Nat}
    {a b : List α} (leftIs : IsAt left index a) (rightIs : IsAt right index b) :
    let result := (compareLoop (stopBody marked difference) left right (min a.length b.length) index).getD 0
    (StopsAt marked a b → result = 0) ∧
      (¬ StopsAt marked a b → (result < 0 ↔ commonOrder a b = .lt) ∧ (0 < result ↔ commonOrder a b = .gt)) := by
  induction a generalizing index b with
  | nil =>
      rw [List.length_nil, Nat.zero_min]
      refine ⟨fun stops => absurd stops (not_stopsAt_nil marked b), fun _ => ?_⟩
      simp [compareLoop, commonOrder]
  | cons letter a inductionHypothesis =>
      cases b with
      | nil =>
          refine ⟨fun stops => absurd stops (not_stopsAt_nil_right marked _), fun _ => ?_⟩
          simp [compareLoop, commonOrder]
      | cons other b =>
          have ⟨isLetter, leftRest⟩ := isAt_cons leftIs
          have ⟨isOther, rightRest⟩ := isAt_cons rightIs
          rw [List.length_cons, List.length_cons, Nat.succ_min_succ, stopsAt_cons_iff]
          unfold compareLoop stopBody
          rw [commonOrder_cons, isLetter, isOther]
          by_cases same : letter = other
          · rw [if_neg (not_not.mpr same), same, if_neg (lt_irrefl other), if_neg (lt_irrefl other)]
            by_cases isMarked : other = marked
            · rw [if_pos isMarked]
              exact ⟨fun _ => rfl, fun goesOn => absurd ⟨rfl, .inl isMarked⟩ goesOn⟩
            · rw [if_neg isMarked, Option.none_or]
              have later := inductionHypothesis leftRest rightRest
              refine ⟨fun stops => later.1 (stops.2.resolve_left isMarked), fun goesOn => later.2 fun stops => ?_⟩
              exact goesOn ⟨rfl, .inr stops⟩
          · rw [if_pos same, Option.some_or, Option.getD_some]
            refine ⟨fun stops => absurd stops.1 same, fun _ => ?_⟩
            rw [negative, positive]
            rcases lt_or_gt_of_ne same with less | greater
            · rw [if_pos less]
              exact ⟨iff_of_true less rfl, iff_of_false (lt_asymm less) (by decide)⟩
            · rw [if_neg (lt_asymm greater), if_pos greater]
              exact ⟨iff_of_false (lt_asymm greater) (by decide), iff_of_true greater rfl⟩

end Stops

end DiStore.Library
