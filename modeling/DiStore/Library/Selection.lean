import Mathlib.Data.List.Range
import Mathlib.Data.Prod.Lex
import Mathlib.Logic.Function.Basic
import Mathlib.Order.Lattice

/-!
Contract: taking the least of finitely many indexed items, one pass for each.

Owns: the pass that finds a least item not yet taken, the loop over passes, and
what the taken items are after any number of passes, also by rank, and where the others stand among
themselves.

Does not own: what is done with the items. Keys may repeat.
-/

set_option autoImplicit false

namespace DiStore.Library

variable {κ : Type} [LinearOrder κ]

section Definition

variable (key : Nat → κ) (total : Nat)

/-- One pass over the items not taken, from a first candidate. -/
def leastFrom (picked : Nat → Bool) (items : List Nat) (candidate : Nat) : Nat :=
  items.foldl
    (fun target item =>
      if picked item then target else if key item < key target then item else target)
    candidate

/-- The loop's variables: the last target, the order of the picks, and the marks. -/
structure Selection where
  target : Nat
  order : Nat → Nat
  picked : Nat → Bool

/-- Nothing is picked yet. -/
def Selection.start : Selection := ⟨0, fun _ => 0, fun _ => false⟩

/-- One pass and its pick. -/
def Selection.pick (selection : Selection) (round : Nat) : Selection :=
  let candidate :=
    ((List.range total).find? fun item => !selection.picked item).getD selection.target
  let target := leastFrom key selection.picked (List.range total) candidate
  ⟨target, Function.update selection.order round target,
    Function.update selection.picked target true⟩

/-- The state after `rounds` passes. -/
def select (rounds : Nat) : Selection :=
  (List.range rounds).foldl (Selection.pick key total) .start

/-- Exactly `count` items are marked, and none of the others is below a marked one. -/
structure Least (count : Nat) (picked : Nat → Bool) : Prop where
  count : (List.range total).countP picked = count
  within : ∀ item, picked item = true → item < total
  least : ∀ item, picked item = true → ∀ other < total, picked other = false → key item ≤ key other

end Definition

variable {key : Nat → κ} {total count : Nat} {picked : Nat → Bool}

/-- The pass ends at a candidate, below everything free that it saw. -/
theorem leastFrom_spec (key : Nat → κ) (picked : Nat → Bool) (items : List Nat) (candidate : Nat) :
    (leastFrom key picked items candidate = candidate ∨
        leastFrom key picked items candidate ∈ items ∧
          picked (leastFrom key picked items candidate) = false) ∧
      key (leastFrom key picked items candidate) ≤ key candidate ∧
      ∀ item ∈ items, picked item = false → key (leastFrom key picked items candidate) ≤ key item := by
  induction items generalizing candidate with
  | nil => simp [leastFrom]
  | cons first items ih =>
      have unfolded : leastFrom key picked (first :: items) candidate =
          leastFrom key picked items
            (if picked first then candidate else if key first < key candidate then first else candidate) :=
        rfl
      rw [unfolded]
      cases taken : picked first with
      | true =>
          rw [if_pos rfl]
          obtain ⟨place, below, least⟩ := ih candidate
          refine ⟨?_, below, ?_⟩
          · apply place.imp_right
            exact fun inside => ⟨List.mem_cons_of_mem _ inside.1, inside.2⟩
          · intro item isMember free
            rcases List.mem_cons.mp isMember with isFirst | later
            · rw [isFirst, taken] at free
              cases free
            · exact least item later free
      | false =>
          rw [if_neg Bool.false_ne_true]
          by_cases smaller : key first < key candidate
          · rw [if_pos smaller]
            obtain ⟨place, below, least⟩ := ih first
            refine ⟨?_, below.trans smaller.le, ?_⟩
            · rcases place with isFirst | inside
              · rw [isFirst]
                exact Or.inr ⟨List.mem_cons_self, taken⟩
              · exact Or.inr ⟨List.mem_cons_of_mem _ inside.1, inside.2⟩
            · intro item isMember free
              rcases List.mem_cons.mp isMember with isFirst | later
              · rw [isFirst]
                exact below
              · exact least item later free
          · rw [if_neg smaller]
            obtain ⟨place, below, least⟩ := ih candidate
            refine ⟨?_, below, ?_⟩
            · apply place.imp_right
              exact fun inside => ⟨List.mem_cons_of_mem _ inside.1, inside.2⟩
            · intro item isMember free
              rcases List.mem_cons.mp isMember with isFirst | later
              · rw [isFirst]
                exact below.trans (not_lt.mp smaller)
              · exact least item later free

/-- One value changed: what it counted for is traded for what the new one counts for. -/
theorem countP_update {α : Type} (places : List Nat) (distinct : places.Nodup) (values : Nat → α)
    {place : Nat} (value : α) (test : α → Bool) (isMember : place ∈ places) :
    places.countP (fun index => test (Function.update values place value index)) +
        (if test (values place) then 1 else 0) =
      places.countP (fun index => test (values index)) + (if test value then 1 else 0) := by
  induction places with
  | nil => cases isMember
  | cons first rest ih =>
      obtain ⟨notLater, distinctRest⟩ := List.nodup_cons.mp distinct
      rw [List.countP_cons, List.countP_cons]
      rcases List.mem_cons.mp isMember with isFirst | later
      · subst isFirst
        have same : rest.countP (fun index => test (Function.update values place value index)) =
            rest.countP (fun index => test (values index)) := by
          apply List.countP_congr
          intro index inRest
          have differs : index ≠ place := by
            rintro rfl
            exact notLater inRest
          rw [Function.update_of_ne differs]
        rw [same, Function.update_self]
        omega
      · have differs : first ≠ place := by
          rintro rfl
          exact notLater later
        have step := ih distinctRest later
        rw [Function.update_of_ne differs]
        omega

/-- Some item is free while fewer than all are marked. -/
theorem Least.exists_free (least : Least key total count picked) (room : count < total) :
    ∃ item < total, picked item = false := by
  by_contra none
  have all : ∀ item ∈ List.range total, picked item = true := by
    intro item isMember
    by_contra free
    apply none
    exact ⟨item, List.mem_range.mp isMember, Bool.eq_false_iff.mpr free⟩
  have full := List.countP_eq_length.mpr all
  rw [least.count, List.length_range] at full
  omega

/-- What one pass picks. -/
theorem Selection.pick_spec (selection : Selection) (round : Nat)
    (least : Least key total count selection.picked) (room : count < total) :
    let after := selection.pick key total round
    after.order = Function.update selection.order round after.target ∧
      after.picked = Function.update selection.picked after.target true ∧
      after.target < total ∧ selection.picked after.target = false ∧
      (∀ other < total, selection.picked other = false → key after.target ≤ key other) ∧
      Least key total (count + 1) after.picked := by
  intro after
  obtain ⟨free, freeBound, isFree⟩ := least.exists_free room
  -- the first loop finds a free item, since there is one
  obtain ⟨candidate, found⟩ : ∃ candidate,
      (List.range total).find? (fun item => !selection.picked item) = some candidate := by
    apply Option.isSome_iff_exists.mp
    rw [List.find?_isSome]
    exact ⟨free, List.mem_range.mpr freeBound, by simp [isFree]⟩
  have candidateFree : selection.picked candidate = false := by
    simpa using List.find?_some found
  have candidateBound : candidate < total := List.mem_range.mp (List.mem_of_find?_eq_some found)
  have isTarget : after.target = leastFrom key selection.picked (List.range total) candidate := by
    change leastFrom key selection.picked (List.range total) _ = _
    rw [found]
    rfl
  obtain ⟨place, _, below⟩ :=
    leastFrom_spec key selection.picked (List.range total) candidate
  rw [← isTarget] at place below
  have targetFree : selection.picked after.target = false := by
    rcases place with isCandidate | inside
    · rw [isCandidate]
      exact candidateFree
    · exact inside.2
  have targetBound : after.target < total := by
    rcases place with isCandidate | inside
    · rw [isCandidate]
      exact candidateBound
    · exact List.mem_range.mp inside.1
  have belowFree : ∀ other < total, selection.picked other = false →
      key after.target ≤ key other := fun other bound isOtherFree =>
    below other (List.mem_range.mpr bound) isOtherFree
  have marks : after.picked = Function.update selection.picked after.target true := rfl
  refine ⟨rfl, marks, targetBound, targetFree, belowFree, ?_⟩
  constructor
  · have counted : (List.range total).countP (Function.update selection.picked after.target true) +
        (if selection.picked after.target then 1 else 0) =
          (List.range total).countP selection.picked + 1 :=
      countP_update (List.range total) List.nodup_range selection.picked true id
        (List.mem_range.mpr targetBound)
    rw [targetFree, if_neg Bool.false_ne_true, least.count] at counted
    rw [marks]
    exact counted
  · intro item marked
    rw [marks] at marked
    by_cases isNew : item = after.target
    · rw [isNew]
      exact targetBound
    · rw [Function.update_of_ne isNew] at marked
      exact least.within item marked
  · intro item marked other otherBound otherFree
    rw [marks] at marked otherFree
    have notNew : other ≠ after.target := by
      intro isNew
      rw [isNew, Function.update_self] at otherFree
      cases otherFree
    rw [Function.update_of_ne notNew] at otherFree
    by_cases isNew : item = after.target
    · rw [isNew]
      exact belowFree other otherBound otherFree
    · rw [Function.update_of_ne isNew] at marked
      exact least.least item marked other otherBound otherFree

theorem select_succ (rounds : Nat) :
    select key total (rounds + 1) = (select key total rounds).pick key total rounds := by
  rw [select, List.range_succ, List.foldl_append]
  rfl

/-- After any number of passes the marked items are that many least ones. -/
theorem select_least (key : Nat → κ) {rounds : Nat} (enough : rounds ≤ total) :
    Least key total rounds (select key total rounds).picked := by
  induction rounds with
  | zero =>
      constructor
      · exact List.countP_eq_zero.mpr fun _ _ => Bool.false_ne_true
      · intro item marked
        cases marked
      · intro item marked
        cases marked
  | succ rounds ih =>
      rw [select_succ]
      exact (Selection.pick_spec _ rounds (ih (by omega)) (by omega)).2.2.2.2.2

/-- The last pick, and the marks without it. -/
theorem select_last (key : Nat → κ) {rounds : Nat} (room : rounds < total) :
    let target := (select key total (rounds + 1)).order rounds
    target < total ∧ (select key total rounds).picked target = false ∧
      (∀ other < total, (select key total rounds).picked other = false → key target ≤ key other) ∧
      Function.update (select key total (rounds + 1)).picked target false =
        (select key total rounds).picked := by
  intro target
  obtain ⟨order, marks, bound, free, below, _⟩ := Selection.pick_spec (select key total rounds) rounds
    (select_least key room.le) room
  rw [← select_succ] at order marks bound free below
  have isTarget : target = (select key total (rounds + 1)).target := by
    change (select key total (rounds + 1)).order rounds = _
    rw [order, Function.update_self]
  rw [isTarget]
  refine ⟨bound, free, below, ?_⟩
  rw [marks, Function.update_idem, ← free, Function.update_eq_self]

/-! ### Ranks -/

/-- With distinct keys, the marked items are those with fewer than `count` keys below. -/
theorem Least.picked_iff (least : Least key total count picked)
    (distinct : ∀ left < total, ∀ right < total, key left = key right → left = right) {item : Nat}
    (bound : item < total) :
    picked item = true ↔ (List.range total).countP (fun other => key other < key item) < count := by
  cases isPicked : picked item with
  | true =>
      apply iff_of_true rfl
      have isMember : item ∈ List.range total := List.mem_range.mpr bound
      have without : (List.range total).countP (Function.update picked item false) +
          (if picked item then 1 else 0) = (List.range total).countP picked + 0 :=
        countP_update (List.range total) List.nodup_range picked false id isMember
      rw [if_pos isPicked, least.count] at without
      have below : (List.range total).countP (fun other => key other < key item) ≤
          (List.range total).countP (Function.update picked item false) := by
        apply List.countP_mono_left
        intro other inRange less
        have smaller := of_decide_eq_true less
        have differs : other ≠ item := by
          rintro rfl
          exact lt_irrefl _ smaller
        rw [Function.update_of_ne differs]
        by_contra notPicked
        exact not_lt_of_ge (least.least item isPicked other (List.mem_range.mp inRange)
          (Bool.eq_false_iff.mpr notPicked)) smaller
      omega
  | false =>
      apply iff_of_false Bool.false_ne_true
      rw [not_lt, ← least.count]
      apply List.countP_mono_left
      intro other inRange marked
      have otherBound := List.mem_range.mp inRange
      have le := least.least other marked item bound isPicked
      have differs : key other ≠ key item := by
        intro same
        have sameItem := distinct other otherBound item bound same
        rw [sameItem, isPicked] at marked
        cases marked
      exact decide_eq_true (lt_of_le_of_ne le differs)

/-! ### Equal keys -/

/-- A pass looks at the items in order, so of equal keys it takes the first. -/
theorem leastFrom_lex {items : List Nat} {candidate : Nat} (increasing : items.Pairwise (· < ·))
    (behind : ∀ item ∈ items, picked item = false → candidate ≤ item) :
    leastFrom (fun item => toLex (key item, item)) picked items candidate = leastFrom key picked items candidate := by
  induction items generalizing candidate with
  | nil => rfl
  | cons first items inductionHypothesis =>
      rcases List.pairwise_cons.mp increasing with ⟨above, later⟩
      unfold leastFrom at inductionHypothesis ⊢
      rw [List.foldl_cons, List.foldl_cons]
      cases isTaken : picked first with
      | true => 
          rw [if_pos rfl, if_pos rfl]
          exact inductionHypothesis later fun item isMember => behind item (List.mem_cons_of_mem _ isMember)
      | false =>
          have notBefore : candidate ≤ first := behind first List.mem_cons_self isTaken
          have sameOrder : toLex (key first, first) < toLex (key candidate, candidate) ↔ key first < key candidate := by
            rw [Prod.Lex.toLex_lt_toLex]
            constructor
            · rintro (isLess | ⟨_, isBefore⟩)
              · exact isLess
              · exact absurd isBefore (not_lt.mpr notBefore)
            · exact Or.inl
          rw [if_neg Bool.false_ne_true, if_neg Bool.false_ne_true]
          simp only [sameOrder]
          apply inductionHypothesis later
          intro item isMember _
          split
          next => exact (above item isMember).le
          next => exact notBefore.trans (above item isMember).le

theorem Selection.pick_lex (key : Nat → κ) (total : Nat) :
    Selection.pick (fun item => toLex (key item, item)) total = Selection.pick key total := by
  funext selection round
  have same : leastFrom (fun item => toLex (key item, item)) selection.picked (List.range total)
        (((List.range total).find? fun item => !selection.picked item).getD selection.target) =
      leastFrom key selection.picked (List.range total)
        (((List.range total).find? fun item => !selection.picked item).getD selection.target) := by
    apply leastFrom_lex List.pairwise_lt_range
    intro item inRange isFree
    cases found : (List.range total).find? fun item => !selection.picked item with
    | none =>
        have noneFree := List.find?_eq_none.mp found item inRange
        rw [isFree] at noneFree
        exact absurd rfl noneFree
    | some least =>
        by_contra isBefore
        have notFree := (List.find?_range_eq_some.mp found).2.2 item (not_le.mp isBefore)
        rw [isFree] at notFree
        cases notFree
  unfold Selection.pick
  simp only [same]

theorem select_lex (key : Nat → κ) (total rounds : Nat) :
    select (fun item => toLex (key item, item)) total rounds = select key total rounds := by
  unfold select
  rw [Selection.pick_lex]

/-- How many items come before one: those with a smaller key, and the earlier ones with the same. -/
def rankBefore (key : Nat → κ) (total item : Nat) : Nat :=
  (List.range total).countP fun other => key other < key item ∨ key other = key item ∧ other < item

theorem select_picked_iff (key : Nat → κ) {rounds item : Nat} (enough : rounds ≤ total) (bound : item < total) :
    (select key total rounds).picked item = true ↔ rankBefore key total item < rounds := by
  have least := select_least (fun item => toLex (key item, item)) enough
  rw [select_lex] at least
  rw [least.picked_iff _ bound]
  · unfold rankBefore
    simp only [Prod.Lex.toLex_lt_toLex]
  · intro left _ right _ same
    exact congrArg (fun pair => (ofLex pair).2) same

/-! ### Places among the marked items -/

/-- The place of a marked item is the number of marked ones before it. -/
theorem getElem?_filter_range (marked : Nat → Bool) (total place item : Nat) :
    ((List.range total).filter marked)[place]? = some item ↔
      item < total ∧ marked item = true ∧ (List.range item).countP marked = place := by
  induction total with
  | zero => simp
  | succ total inductionHypothesis =>
      have length : ((List.range total).filter marked).length = (List.range total).countP marked :=
        List.countP_eq_length_filter.symm
      rw [List.range_succ, List.filter_append]
      by_cases before : place < ((List.range total).filter marked).length
      · rw [List.getElem?_append_left before, inductionHypothesis]
        constructor
        · rintro ⟨bound, isMarked, isPlace⟩
          exact ⟨bound.trans (Nat.lt_succ_self total), isMarked, isPlace⟩
        · rintro ⟨bound, isMarked, isPlace⟩
          refine ⟨?_, isMarked, isPlace⟩
          by_contra isLast
          have isTotal : item = total := by omega
          rw [isTotal] at isPlace
          omega
      · rw [List.getElem?_append_right (not_lt.mp before)]
        constructor
        · intro isItem
          cases isMarked : marked total with
          | false =>
              rw [List.filter_cons_of_neg (by simp [isMarked])] at isItem
              simp at isItem
          | true =>
              rw [List.filter_cons_of_pos isMarked, List.filter_nil] at isItem
              have isFirst := List.getElem?_eq_some_iff.mp isItem
              rcases isFirst with ⟨inOne, isTotal⟩
              rw [List.length_singleton] at inOne
              have atEnd : place = ((List.range total).filter marked).length := by omega
              rw [List.getElem_singleton] at isTotal
              rw [← isTotal, atEnd]
              exact ⟨Nat.lt_succ_self total, isMarked, length.symm⟩
        · rintro ⟨bound, isMarked, isPlace⟩
          have isTotal : item = total := by
            by_contra differs
            have isSmaller : item < total := by omega
            have atPlace := inductionHypothesis.mpr ⟨isSmaller, isMarked, isPlace⟩
            have inside := (List.getElem?_eq_some_iff.mp atPlace).1
            exact before inside
          rw [isTotal] at isMarked isPlace
          rw [isTotal, List.filter_cons_of_pos isMarked, List.filter_nil, ← isPlace, length, Nat.sub_self]
          rfl

end DiStore.Library
