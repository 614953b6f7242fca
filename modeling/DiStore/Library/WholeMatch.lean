import Mathlib.Data.List.TakeWhile

/-!
Contract: patterns of single letters and captured runs that a whole text has to match.

Owns: rows of single letters and of groups that repeat a class of letters a bounded number of
times, the match with backtracking, what it means to fit such a row, and the agreement of the two
for rows whose groups are kept apart.

Does **not** own: the search for a pattern inside of a text, which `Regex` has.

## Groups that are kept apart

A greedy run gives letters back when what follows does not match. Where a group is followed by a
letter it cannot take, there is only one length that leaves something to match, so the captures
are a function of the text and the order of the attempts does not matter.
-/

set_option autoImplicit false

namespace DiStore.Library

variable {α : Type}

/-- One item of a row. -/
inductive WholeItem (α : Type) where
  | letter (accepts : α → Bool)
  | group (accepts : α → Bool) (least most : Nat)

/-- The ways to take at most `most` letters of a class, the longest first, each with the text
that is left. -/
def runsUpTo (accepts : α → Bool) : Nat → List α → List (List α × List α)
  | 0, text => [([], text)]
  | _ + 1, [] => [([], [])]
  | most + 1, letter :: text =>
      (if accepts letter then (runsUpTo accepts most text).map fun run => (letter :: run.1, run.2) else []) ++
        [([], letter :: text)]

/-- The captures of the first way to match the whole text. -/
def wholeMatch : List (WholeItem α) → List α → Option (List (List α))
  | [], text => if text.isEmpty then some [] else none
  | .letter _ :: _, [] => none
  | .letter accepts :: items, letter :: text => if accepts letter then wholeMatch items text else none
  | .group accepts least most :: items, text =>
      (runsUpTo accepts most text).findSome? fun run =>
        if least ≤ run.1.length then (wholeMatch items run.2).map fun groups => run.1 :: groups else none

/-- A text and its captures, as the row describes them. -/
def Fits : List (WholeItem α) → List (List α) → List α → Prop
  | [], groups, text => groups = [] ∧ text = []
  | .letter accepts :: items, groups, text =>
      ∃ letter rest, text = letter :: rest ∧ accepts letter = true ∧ Fits items groups rest
  | .group accepts least most :: items, groups, text =>
      ∃ run others rest, groups = run :: others ∧ text = run ++ rest ∧ least ≤ run.length ∧ run.length ≤ most ∧
        (∀ letter ∈ run, accepts letter = true) ∧ Fits items others rest

/-- Nothing, or a letter that the class refuses, comes next. -/
def Blocks (accepts : α → Bool) : List (WholeItem α) → Prop
  | [] => True
  | .letter other :: _ => ∀ letter, other letter = true → accepts letter = false
  | .group .. :: _ => False

/-- No group can take a letter of what follows it. -/
def Separated : List (WholeItem α) → Prop
  | [] => True
  | .letter _ :: items => Separated items
  | .group accepts _ _ :: items => Blocks accepts items ∧ Separated items

/-! ### Runs -/

theorem mem_runsUpTo {accepts : α → Bool} {most : Nat} {text run rest : List α} :
    (run, rest) ∈ runsUpTo accepts most text ↔
      text = run ++ rest ∧ run.length ≤ most ∧ ∀ letter ∈ run, accepts letter = true := by
  induction most generalizing text run rest with
  | zero =>
      unfold runsUpTo
      rw [List.mem_singleton, Prod.mk.injEq, Nat.le_zero, List.length_eq_zero_iff]
      constructor
      · rintro ⟨isNil, isRest⟩
        rw [isNil, isRest]
        exact ⟨rfl, rfl, by simp⟩
      · rintro ⟨isText, isNil, _⟩
        rw [isText, isNil]
        exact ⟨rfl, rfl⟩
  | succ most inductionHypothesis =>
      cases text with
      | nil =>
          unfold runsUpTo
          rw [List.mem_singleton, Prod.mk.injEq]
          constructor
          · rintro ⟨isNil, isRest⟩
            rw [isNil, isRest]
            exact ⟨rfl, Nat.zero_le _, by simp⟩
          · rintro ⟨isText, _, _⟩
            exact List.append_eq_nil_iff.mp isText.symm
      | cons letter text =>
          unfold runsUpTo
          rw [List.mem_append, List.mem_singleton, Prod.mk.injEq]
          constructor
          · rintro (taken | ⟨isNil, isRest⟩)
            · by_cases accepted : accepts letter = true
              · rw [if_pos accepted] at taken
                rcases List.mem_map.mp taken with ⟨⟨shorter, left⟩, isMember, isRun⟩
                have ⟨isCons, isLeft⟩ := Prod.mk.inj isRun
                have ⟨isText, short, allAccepted⟩ := inductionHypothesis.mp isMember
                subst isCons isLeft isText
                exact ⟨rfl, Nat.succ_le_succ short, List.forall_mem_cons.mpr ⟨accepted, allAccepted⟩⟩
              · rw [if_neg accepted] at taken
                cases taken
            · rw [isNil, isRest]
              exact ⟨rfl, Nat.zero_le _, by simp⟩
          · rintro ⟨isText, short, allAccepted⟩
            cases run with
            | nil => exact .inr ⟨rfl, isText.symm⟩
            | cons head run =>
                have ⟨isHead, isTail⟩ := List.cons.inj isText
                have ⟨accepted, restAccepted⟩ := List.forall_mem_cons.mp allAccepted
                have isMember := inductionHypothesis.mpr ⟨isTail, Nat.le_of_succ_le_succ short, restAccepted⟩
                rw [isHead, if_pos accepted]
                exact .inl (List.mem_map.mpr ⟨(run, rest), isMember, rfl⟩)

/-! ### The match fits -/

theorem fits_of_wholeMatch {items : List (WholeItem α)} {groups : List (List α)} {text : List α}
    (matched : wholeMatch items text = some groups) : Fits items groups text := by
  induction items generalizing groups text with
  | nil =>
      unfold wholeMatch at matched
      split at matched
      next isEmpty => exact ⟨(Option.some.inj matched).symm, List.isEmpty_iff.mp isEmpty⟩
      next => cases matched
  | cons item items inductionHypothesis =>
      cases item with
      | letter accepts =>
          cases text with
          | nil => cases matched
          | cons letter text =>
              unfold wholeMatch at matched
              split at matched
              next accepted => exact ⟨letter, text, rfl, accepted, inductionHypothesis matched⟩
              next => cases matched
      | group accepts least most =>
          unfold wholeMatch at matched
          rcases List.exists_of_findSome?_eq_some matched with ⟨⟨run, rest⟩, isMember, here⟩
          have ⟨isText, short, allAccepted⟩ := mem_runsUpTo.mp isMember
          simp only at here
          split at here
          next long =>
            rcases Option.map_eq_some_iff.mp here with ⟨others, later, isGroups⟩
            exact ⟨run, others, rest, isGroups.symm, isText, long, short, allAccepted, inductionHypothesis later⟩
          next => cases here

theorem isSome_of_fits {items : List (WholeItem α)} {groups : List (List α)} {text : List α}
    (fits : Fits items groups text) : (wholeMatch items text).isSome = true := by
  induction items generalizing groups text with
  | nil =>
      rw [fits.2]
      rfl
  | cons item items inductionHypothesis =>
      cases item with
      | letter accepts =>
          rcases fits with ⟨letter, rest, isText, accepted, later⟩
          rw [isText]
          unfold wholeMatch
          rw [if_pos accepted]
          exact inductionHypothesis later
      | group accepts least most =>
          rcases fits with ⟨run, others, rest, _, isText, long, short, allAccepted, later⟩
          unfold wholeMatch
          rw [List.findSome?_isSome_iff]
          refine ⟨(run, rest), mem_runsUpTo.mpr ⟨isText, short, allAccepted⟩, ?_⟩
          rw [if_pos long, Option.isSome_map]
          exact inductionHypothesis later

/-! ### Separated groups -/

/-- What follows a group does not begin with a letter of its class. -/
theorem takeWhile_of_blocks {accepts : α → Bool} {items : List (WholeItem α)} {groups : List (List α)}
    {rest : List α} (blocks : Blocks accepts items) (fits : Fits items groups rest) :
    rest.takeWhile accepts = [] := by
  cases items with
  | nil =>
      rw [fits.2]
      rfl
  | cons item items =>
      cases item with
      | letter other =>
          rcases fits with ⟨letter, behind, isRest, accepted, _⟩
          rw [isRest, List.takeWhile_cons_of_neg (by rw [blocks letter accepted]; exact Bool.false_ne_true)]
      | group => cases blocks

/-- A run in front of a text that is blocked is all that its class can take. -/
theorem takeWhile_run {accepts : α → Bool} {run rest : List α} (allAccepted : ∀ letter ∈ run, accepts letter = true)
    (blocked : rest.takeWhile accepts = []) : (run ++ rest).takeWhile accepts = run := by
  rw [List.takeWhile_append_of_pos allAccepted, blocked, List.append_nil]

/-- **Captures are determined by the text** when no group can take what follows it. -/
theorem fits_unique {items : List (WholeItem α)} (separated : Separated items) {groups others : List (List α)}
    {text : List α} (left : Fits items groups text) (right : Fits items others text) : groups = others := by
  induction items generalizing groups others text with
  | nil => rw [left.1, right.1]
  | cons item items inductionHypothesis =>
      cases item with
      | letter accepts =>
          rcases left with ⟨letter, rest, isText, _, leftLater⟩
          rcases right with ⟨other, behind, isOther, _, rightLater⟩
          have sameRest := (List.cons.inj (isText.symm.trans isOther)).2
          rw [← sameRest] at rightLater
          exact inductionHypothesis separated leftLater rightLater
      | group accepts least most =>
          have ⟨blocks, later⟩ := separated
          rcases left with ⟨run, groups, rest, isGroups, isText, _, _, allAccepted, leftLater⟩
          rcases right with ⟨taken, others, behind, isOthers, isOther, _, _, allTaken, rightLater⟩
          have runIs := takeWhile_run allAccepted (takeWhile_of_blocks blocks leftLater)
          have takenIs := takeWhile_run allTaken (takeWhile_of_blocks blocks rightLater)
          have sameRun : run = taken := by rw [← runIs, ← takenIs, ← isText, isOther]
          have sameRest : rest = behind := by
            rw [isText, sameRun] at isOther
            exact List.append_cancel_left isOther
          rw [← sameRest] at rightLater
          rw [isGroups, isOthers, sameRun, inductionHypothesis later leftLater rightLater]

theorem wholeMatch_eq_some_iff {items : List (WholeItem α)} (separated : Separated items)
    {groups : List (List α)} {text : List α} : wholeMatch items text = some groups ↔ Fits items groups text := by
  constructor
  · exact fits_of_wholeMatch
  · intro fits
    rcases Option.isSome_iff_exists.mp (isSome_of_fits fits) with ⟨others, matched⟩
    rw [matched, fits_unique separated (fits_of_wholeMatch matched) fits]

end DiStore.Library
