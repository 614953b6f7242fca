import DiStore.SearchLayer.PlainWalk
import DiStore.SearchLayer.Towers

/-!
Contract: the removal of an anchor that is not in the skip list.

Owns: `remove` with the null pointer that it may read, the lists that inserts and removals
reach, and when a removal finds nothing to do.

Does not own: the removal of a present anchor (`SearchLayer.Towers`).
-/

set_option autoImplicit false

namespace DiStore.SearchLayer.SkipList

open DiStore.DataLayer DiStore.Library

/-- `remove`; `none` when `walker->forwards[0]->anchor` reads through a null pointer. -/
def removeCall (slist : SkipList) (anchor : Str) : Option (Bool × SkipList) :=
  let walker := (slist.descend anchor 0 slist.currentLevel head fun _ => head).1
  (slist.forward 0 walker).map fun _ => slist.remove anchor

/-- The lists after any sequence of `insert` and of `remove` calls that returned. -/
inductive Operated (fakeHead : RemotePointer) : SkipList → Prop
  | empty : Operated fakeHead (empty fakeHead)
  | insert {slist : SkipList} (operated : Operated fakeHead slist) (anchor : Str) (remote : RemotePointer)
      (type : LinkedNodeType) (level : Level) : Operated fakeHead (slist.insert anchor remote type level)
  | remove {slist next : SkipList} {result : Bool} (operated : Operated fakeHead slist) (anchor : Str)
      (returned : slist.removeCall anchor = some (result, next)) : Operated fakeHead next

variable {slist next : SkipList} {chain : List NodeId} {height : NodeId → Nat} {anchor : Str}
variable {fakeHead : RemotePointer}

theorem Towers.levelChain_eq (towers : slist.Towers chain height) : slist.levelChain 0 = chain := by
  have ordered := towers.ordered.levelChain_eq 0
  rw [onLevel_zero towers] at ordered
  exact ordered

/-- A removal reads through a null pointer when all anchors are below the one to be removed. -/
theorem Towers.removeCall_eq_none (towers : slist.Towers chain height) (anchor : Str) :
    slist.removeCall anchor = none ↔ ∀ node ∈ chain, slist.anchorOf node < anchor := by
  show (slist.forward 0 (slist.descend anchor 0 slist.currentLevel head fun _ => head).1).map _ = none ↔ _
  rw [Option.map_eq_none_iff, towers.forward_stop, List.head?_eq_none_iff]
  show (chain.dropWhile fun node => decide (slist.anchorOf node < anchor)) = [] ↔ _
  rw [List.dropWhile_eq_nil_iff]
  exact forall₂_congr fun _ _ => decide_eq_true_iff

/-- Where a search for an absent anchor stops before a node, nothing is removed. -/
theorem Towers.remove_absent (towers : slist.Towers chain height)
    (absent : ∀ node ∈ chain, slist.anchorOf node ≠ anchor) :
    slist.removeCall anchor = none ∨ slist.removeCall anchor = some (false, slist) := by
  have stop := towers.forward_stop anchor
  cases isStop : (slist.notBelow chain anchor).head? with
  | none =>
      apply Or.inl
      rw [isStop] at stop
      show (slist.forward 0 (slist.descend anchor 0 slist.currentLevel head fun _ => head).1).map _ = none
      rw [stop]
      rfl
  | some node =>
      apply Or.inr
      rw [isStop] at stop
      have isMember : node ∈ chain := notBelow_subset slist chain anchor (List.mem_of_head? isStop)
      have differs : (slist.nodes node).anchor ≠ anchor := absent node isMember
      show (slist.forward 0 (slist.descend anchor 0 slist.currentLevel head fun _ => head).1).map _ = _
      rw [stop, Option.map_some]
      unfold SkipList.remove
      simp only [stop, if_neg differs]

theorem Operated.edited (operated : Operated fakeHead slist) : ∃ remaining, Edited fakeHead slist remaining := by
  induction operated with
  | empty => exact ⟨[], .empty⟩
  | insert operated anchor remote type level inductionHypothesis =>
      obtain ⟨remaining, edited⟩ := inductionHypothesis
      exact ⟨_, edited.insert anchor remote type level⟩
  | @remove slist next result operated anchor returned inductionHypothesis =>
      obtain ⟨remaining, edited⟩ := inductionHypothesis
      obtain ⟨chain, height, remembers⟩ := edited.remembered
      by_cases present : ∃ insertion ∈ remaining, insertion.anchor = anchor
      · obtain ⟨node, _, isResult⟩ := Option.map_eq_some_iff.mp returned
        have isNext : (slist.remove anchor).2 = next := congrArg Prod.snd isResult
        rw [← isNext]
        exact ⟨_, edited.remove anchor present⟩
      · have absent : ∀ node ∈ chain, slist.anchorOf node ≠ anchor := by
          intro node isMember hasAnchor
          obtain ⟨insertion, isInsertion, isNode⟩ := List.mem_map.mp (remembers.members.mem_iff.mp isMember)
          apply present
          refine ⟨insertion, isInsertion, ?_⟩
          rw [← remembers.anchor insertion isInsertion, isNode]
          exact hasAnchor
        rcases remembers.towers.remove_absent absent with isNone | isSame
        · rw [isNone] at returned
          cases returned
        · rw [isSame] at returned
          have isNext : slist = next := congrArg Prod.snd (Option.some.inj returned)
          rw [← isNext]
          exact ⟨remaining, edited⟩

/-- The removal of an absent anchor returns false and changes nothing if and only if some anchor
of the list is above it. -/
theorem remove_absent_iff (operated : Operated fakeHead slist)
    (absent : ∀ node ∈ slist.levelChain 0, slist.anchorOf node ≠ anchor) :
    slist.removeCall anchor = some (false, slist) ↔
      ∃ node ∈ slist.levelChain 0, anchor < slist.anchorOf node := by
  obtain ⟨remaining, edited⟩ := operated.edited
  obtain ⟨chain, height, remembers⟩ := edited.remembered
  rw [remembers.towers.levelChain_eq] at absent ⊢
  have readsNull := remembers.towers.removeCall_eq_none anchor
  constructor
  · intro returned
    by_contra noneAbove
    have allBelow : ∀ node ∈ chain, slist.anchorOf node < anchor := by
      intro node isMember
      by_contra notBelow
      apply noneAbove
      exact ⟨node, isMember, lt_of_le_of_ne (not_lt.mp notBelow) (absent node isMember).symm⟩
    rw [readsNull.mpr allBelow] at returned
    cases returned
  · intro someAbove
    obtain ⟨node, isMember, above⟩ := someAbove
    rcases remembers.towers.remove_absent absent with isNone | isSame
    · exact absurd above (not_lt_of_ge (readsNull.mp isNone node isMember).le)
    · exact isSame

/-- A list with the anchor 2. -/
def onlyTwo : SkipList := (empty nullptr).insert [2] nullptr .type10 1

theorem onlyTwo_keeps : onlyTwo.removeCall [1] = some (false, onlyTwo) :=
  (remove_absent_iff (Operated.empty.insert [2] nullptr .type10 ⟨1, by decide⟩)
    (by decide +kernel)).mpr (by decide +kernel)

theorem empty_reads_null :
    ¬ ∀ (fakeHead : RemotePointer) (slist : SkipList) (anchor : Str), Operated fakeHead slist →
      (∀ node ∈ slist.levelChain 0, slist.anchorOf node ≠ anchor) →
      slist.removeCall anchor = some (false, slist) := by
  intro harmless
  have returned := harmless nullptr (empty nullptr) [1] Operated.empty (by decide +kernel)
  have isNone : (empty nullptr).removeCall [1] = none := by decide +kernel
  rw [isNone] at returned
  cases returned

end DiStore.SearchLayer.SkipList
