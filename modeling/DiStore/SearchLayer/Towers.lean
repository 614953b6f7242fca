import DiStore.SearchLayer.Ordered
import Mathlib.Data.List.Find

/-!
Contract: the representation invariant of the skip list over insertions and removals.

Owns: the towers of a list (`SkipList.Towers`: every level is the part of the bottom chain
that is tall enough), their preservation by `insert` and `remove`, and what `search` finds.

Does not own: the stores of `async_update` and `calibrate`, after which a node is not on
all of its levels (`SearchLayer.AsyncLinking`).
-/

set_option autoImplicit false

namespace DiStore.SearchLayer.SkipList

open DiStore.DataLayer DiStore.Library

variable {slist : SkipList} {chain : List NodeId} {height : NodeId → Nat} {anchor : Str}

/-- The nodes of a chain that are on a level. -/
def onLevel (chain : List NodeId) (height : NodeId → Nat) (level : Nat) : List NodeId :=
  chain.filter fun node => level < height node

/-- `chain` is the bottom level, newest first among equal anchors, and a node of height `h`
is on exactly the levels below `h`. -/
structure Towers (slist : SkipList) (chain : List NodeId) (height : NodeId → Nat) : Prop where
  linked : ∀ level, Linked (slist.forward level) head (onLevel chain height level)
  linkedBack : LinkedBack (fun node => (slist.nodes node).backward) head chain
  nodup : (head :: chain).Nodup
  sorted : SortedBy slist.anchorOf chain
  newestFirst : chain.Pairwise fun earlier later =>
    slist.anchorOf earlier = slist.anchorOf later → later < earlier
  tall : ∀ node ∈ chain, 0 < height node
  low : ∀ node ∈ chain, height node ≤ slist.currentLevel
  known : ∀ node ∈ head :: chain, node < slist.count
  headAnchor : slist.anchorOf head = []

theorem towers_empty (fakeHead : RemotePointer) (height : NodeId → Nat) :
    (empty fakeHead).Towers [] height where
  linked _ := rfl
  linkedBack := trivial
  nodup := List.nodup_singleton _
  sorted := List.Pairwise.nil
  newestFirst := List.Pairwise.nil
  tall _ isMember := by cases isMember
  low _ isMember := by cases isMember
  known node isHead := by
    rw [List.mem_singleton.mp isHead]
    exact Nat.one_pos
  headAnchor := rfl

/-! ### The levels -/

theorem onLevel_zero (towers : slist.Towers chain height) : onLevel chain height 0 = chain :=
  List.filter_eq_self.mpr fun node isMember => decide_eq_true (towers.tall node isMember)

theorem onLevel_sublist (chain : List NodeId) (height : NodeId → Nat) (level : Nat) :
    (onLevel chain height (level + 1)).Sublist (onLevel chain height level) := by
  apply List.monotone_filter_right
  intro node above
  have higher := of_decide_eq_true above
  exact decide_eq_true (Nat.lt_of_succ_lt higher)

theorem onLevel_append (first second : List NodeId) (height : NodeId → Nat) (level : Nat) :
    onLevel (first ++ second) height level = onLevel first height level ++ onLevel second height level :=
  List.filter_append ..

theorem onLevel_cons (node : NodeId) (chain : List NodeId) (height : NodeId → Nat) (level : Nat) :
    onLevel (node :: chain) height level =
      if level < height node then node :: onLevel chain height level else onLevel chain height level := by
  unfold onLevel
  rw [List.filter_cons]
  simp only [decide_eq_true_eq]

theorem onLevel_congr {other : NodeId → Nat} (same : ∀ node ∈ chain, other node = height node) (level : Nat) :
    onLevel chain other level = onLevel chain height level := by
  apply List.filter_congr
  intro node isMember
  rw [same node isMember]

/-- The list as the searches see it. An empty list may have `current_level` 0. -/
def raised (slist : SkipList) : SkipList := { slist with currentLevel := max 1 slist.currentLevel }

/-- With at least one level, the towers are the sorted chains of a skip list. -/
theorem Towers.ordered (towers : slist.Towers chain height) :
    slist.raised.Ordered (onLevel chain height) where
  linked := towers.linked
  nodup level := towers.nodup.sublist (List.Sublist.cons_cons _ List.filter_sublist)
  sorted level := towers.sorted.sublist List.filter_sublist
  nested level := (onLevel_sublist chain height level).subset
  known level node isMember := by
    apply towers.known node
    rcases List.mem_cons.mp isMember with isHead | inLevel
    · rw [isHead]
      exact List.mem_cons_self
    · exact List.mem_cons_of_mem _ (List.mem_of_mem_filter inLevel)
  low level bound := by
    apply List.filter_eq_nil_iff.mpr
    intro node isMember
    have below := towers.low node isMember
    have above : slist.currentLevel ≤ level := (le_max_right _ _).trans bound
    simpa using below.trans above
  bottom := lt_of_lt_of_le Nat.one_pos (le_max_left _ _)
  headAnchor := towers.headAnchor

/-- The levels above the current one do not exist. -/
theorem Towers.head_none (towers : slist.Towers chain height) {level : Nat} (above : slist.currentLevel ≤ level) :
    slist.forward level head = none := by
  have empty : onLevel chain height level = [] := by
    apply List.filter_eq_nil_iff.mpr
    intro node isMember
    simpa using (towers.low node isMember).trans above
  have linked := towers.linked level
  rw [empty] at linked
  exact linked

/-- A search takes the same way with one empty level more. -/
theorem Towers.descend_raised (towers : slist.Towers chain height) (anchor : Str) :
    slist.descend anchor 0 slist.currentLevel head (fun _ => head) =
      slist.raised.descend anchor 0 slist.raised.currentLevel head fun _ => head := by
  have same : ∀ level, slist.advance anchor level = slist.raised.advance anchor level := fun _ => rfl
  have descends : ∀ (top : Nat) (walker : NodeId) (update : Nat → NodeId),
      slist.descend anchor 0 top walker update = slist.raised.descend anchor 0 top walker update := by
    intro top
    induction top with
    | zero => exact fun _ _ => rfl
    | succ top ih =>
        intro walker update
        unfold descend
        rw [if_neg (Nat.not_lt_zero _), if_neg (Nat.not_lt_zero _), same]
        exact ih _ _
  rw [descends]
  by_cases positive : 0 < slist.currentLevel
  · rw [raised, max_eq_right positive]
  · have isZero : slist.currentLevel = 0 := Nat.eq_zero_of_not_pos positive
    have stays : slist.raised.advance anchor 0 head = head := by
      have none : slist.raised.forward 0 head = none := towers.head_none (isZero ▸ Nat.le_refl 0)
      unfold advance
      cases slist.raised.count with
      | zero => rfl
      | succ fuel =>
          unfold walk
          rw [none]
    have one : slist.raised.currentLevel = 1 := by
      rw [raised, isZero]
      rfl
    rw [isZero, one]
    unfold descend
    rw [if_neg (Nat.not_lt_zero _)]
    simp only [stays, Function.update_eq_self]
    rfl

/-- `update[]`: the last node below the anchor on every level. -/
theorem Towers.descend_eq (towers : slist.Towers chain height) (anchor : Str) :
    (slist.descend anchor 0 slist.currentLevel head fun _ => head).1 =
        lastBelow slist.anchorOf head chain anchor ∧
      ∀ level, (slist.descend anchor 0 slist.currentLevel head fun _ => head).2 level =
        lastBelow slist.anchorOf head (onLevel chain height level) anchor := by
  have ordered := towers.ordered
  have reached := ordered.descend_eq anchor 0 slist.raised.currentLevel head (fun _ => head) (Or.inl rfl)
  rw [if_pos ordered.bottom] at reached
  rw [towers.descend_raised, reached]
  refine ⟨by rw [onLevel_zero towers]; rfl, fun level => ?_⟩
  simp only [Nat.zero_le, true_and]
  split
  next => rfl
  next above =>
    rw [ordered.low level (not_lt.mp above)]
    rfl

theorem Towers.predecessors_eq (towers : slist.Towers chain height) (anchor : Str) (level : Nat) :
    slist.predecessors anchor 0 level = lastBelow slist.anchorOf head (onLevel chain height level) anchor :=
  (towers.descend_eq anchor).2 level

/-! ### The two parts of a chain -/

/-- The parts of a level are the levels of the parts. -/
theorem Towers.below_onLevel (towers : slist.Towers chain height) (anchor : Str) (level : Nat) :
    slist.below (onLevel chain height level) anchor = onLevel (slist.below chain anchor) height level := by
  have sorted : SortedBy slist.anchorOf (onLevel chain height level) :=
    towers.sorted.sublist List.filter_sublist
  unfold below onLevel
  rw [takeWhile_below towers.sorted, List.filter_comm]
  exact takeWhile_below sorted

theorem Towers.notBelow_onLevel (towers : slist.Towers chain height) (anchor : Str) (level : Nat) :
    slist.notBelow (onLevel chain height level) anchor = onLevel (slist.notBelow chain anchor) height level := by
  have sorted : SortedBy slist.anchorOf (onLevel chain height level) :=
    towers.sorted.sublist List.filter_sublist
  unfold notBelow onLevel
  rw [dropWhile_below towers.sorted, List.filter_comm]
  exact dropWhile_below sorted

/-! ### Insertion -/

section Insertion

variable {level : Nat}

/-- A new node has a level, so an empty list gets its bottom level back. -/
theorem Towers.insert_raised (towers : slist.Towers chain height) (anchor : Str) (remote : RemotePointer)
    (type : LinkedNodeType) (positive : 0 < level) :
    slist.insert anchor remote type level = slist.raised.insert anchor remote type level := by
  have same : slist.predecessors anchor 0 = slist.raised.predecessors anchor 0 :=
    congrArg Prod.snd (towers.descend_raised anchor)
  have top : max slist.raised.currentLevel level = max slist.currentLevel level := by
    change max (max 1 slist.currentLevel) level = _
    omega
  obtain ⟨linked, isLinked, inserted⟩ := insert_eq slist anchor remote type level
  obtain ⟨linked', isLinked', inserted'⟩ := insert_eq slist.raised anchor remote type level
  have linkedSame : linked' = linked := by
    rw [isLinked, isLinked', ← same, top]
    rfl
  rw [inserted, inserted', linkedSame, ← same]
  rfl

/-- The new node stands before the first anchor that is not smaller. -/
def insertedChain (slist : SkipList) (chain : List NodeId) (anchor : Str) : List NodeId :=
  slist.below chain anchor ++ slist.count :: slist.notBelow chain anchor

theorem insertedChain_perm (slist : SkipList) (chain : List NodeId) (anchor : Str) :
    (slist.insertedChain chain anchor).Perm (slist.count :: chain) := by
  apply List.perm_middle.trans
  rw [below_append_notBelow]

theorem Towers.ne_count (towers : slist.Towers chain height) {node : NodeId} (isMember : node ∈ chain) :
    node ≠ slist.count :=
  (towers.known node (List.mem_cons_of_mem _ isMember)).ne

/-- The levels of the new chain. -/
theorem Towers.insertedLevels_eq (towers : slist.Towers chain height) (anchor : Str) (level place : Nat) :
    insertedLevels (onLevel chain height) (fun place => slist.below (onLevel chain height place) anchor)
        (fun place => slist.notBelow (onLevel chain height place) anchor) (List.range level) slist.count place =
      onLevel (slist.insertedChain chain anchor) (Function.update height slist.count level) place := by
  have keeps : ∀ part : List NodeId, part ⊆ chain →
      onLevel part (Function.update height slist.count level) place = onLevel part height place := by
    intro part within
    apply onLevel_congr
    intro node isMember
    exact Function.update_of_ne (towers.ne_count (within isMember)) _ _
  have keepsLower := keeps _ (below_subset slist chain anchor)
  have keepsUpper := keeps _ (notBelow_subset slist chain anchor)
  unfold insertedLevels insertedChain
  rw [onLevel_append, onLevel_cons, keepsLower, keepsUpper, Function.update_self]
  by_cases inPlace : place < level
  · rw [if_pos (List.mem_range.mpr inPlace), if_pos inPlace, ← towers.below_onLevel, ← towers.notBelow_onLevel]
  · rw [if_neg (fun isPlace => inPlace (List.mem_range.mp isPlace)), if_neg inPlace, ← onLevel_append,
      below_append_notBelow]

theorem Towers.insert (towers : slist.Towers chain height) (anchor : Str) (remote : RemotePointer)
    (type : LinkedNodeType) (positive : 0 < level) :
    (slist.insert anchor remote type level).Towers (slist.insertedChain chain anchor)
        (Function.update height slist.count level) ∧
      (slist.insert anchor remote type level).count = slist.count + 1 ∧
      (slist.insert anchor remote type level).anchorOf slist.count = anchor ∧
      ∀ node ≠ slist.count, (slist.insert anchor remote type level).anchorOf node = slist.anchorOf node := by
  obtain ⟨ordered, created⟩ := towers.ordered.insert anchor remote type positive
  rw [← towers.insert_raised anchor remote type positive] at ordered created
  have levels := towers.insertedLevels_eq anchor level
  have lowerBottom : slist.raised.below (onLevel chain height 0) anchor = slist.below chain anchor := by
    change slist.below (onLevel chain height 0) anchor = _
    rw [onLevel_zero towers]
  have upperBottom : slist.raised.notBelow (onLevel chain height 0) anchor = slist.notBelow chain anchor := by
    change slist.notBelow (onLevel chain height 0) anchor = _
    rw [onLevel_zero towers]
  rw [lowerBottom, upperBottom] at created
  have sameAnchor : ∀ node ≠ slist.count,
      (slist.insert anchor remote type level).anchorOf node = slist.anchorOf node :=
    fun node differs => (created.old node differs).1
  have backward : ∀ node, ((slist.insert anchor remote type level).nodes node).backward =
      if (slist.notBelow chain anchor).head? = some node then some slist.count
      else if node = slist.count then some ((slist.below chain anchor).getLastD head)
      else (slist.nodes node).backward := created.backward
  have apart : (slist.below chain anchor ++ slist.notBelow chain anchor).Nodup := by
    rw [below_append_notBelow]
    exact (List.nodup_cons.mp towers.nodup).2
  have members : ∀ node, node ∈ slist.insertedChain chain anchor ↔ node = slist.count ∨ node ∈ chain := by
    intro node
    rw [(insertedChain_perm slist chain anchor).mem_iff, List.mem_cons]
  refine ⟨?_, created.count, created.anchor, sameAnchor⟩
  have tall : ∀ node ∈ slist.insertedChain chain anchor, 0 < Function.update height slist.count level node := by
    intro node isMember
    rcases (members node).mp isMember with isNew | isOld
    · rw [isNew, Function.update_self]
      exact positive
    · rw [Function.update_of_ne (towers.ne_count isOld)]
      exact towers.tall node isOld
  have bottom : onLevel (slist.insertedChain chain anchor) (Function.update height slist.count level) 0 =
      slist.insertedChain chain anchor :=
    List.filter_eq_self.mpr fun node isMember => decide_eq_true (tall node isMember)
  constructor
  case linked =>
    intro place
    rw [← levels]
    exact ordered.linked place
  case linkedBack =>
    have old : LinkedBack (fun node => (slist.nodes node).backward) head
        (slist.below chain anchor ++ slist.notBelow chain anchor) := by
      rw [below_append_notBelow]
      exact towers.linkedBack
    apply old.insert
    · intro member inLower
      rw [backward, if_neg, if_neg (towers.ne_count (below_subset _ _ _ inLower))]
      intro isNext
      exact List.disjoint_of_nodup_append apart inLower (List.mem_of_mem_head? isNext)
    · rw [backward, if_neg, if_pos rfl]
      intro isNext
      exact towers.ne_count (notBelow_subset _ _ _ (List.mem_of_mem_head? isNext)) rfl
    · intro next isNext
      rw [backward, if_pos isNext]
    · intro member inTail
      have inUpper := List.mem_of_mem_tail inTail
      rw [backward, if_neg, if_neg (towers.ne_count (notBelow_subset _ _ _ inUpper))]
      intro isNext
      have upperNodup := (List.nodup_append.mp apart).2.1
      rw [← List.cons_head?_tail isNext] at upperNodup
      exact (List.nodup_cons.mp upperNodup).1 inTail
  case nodup =>
    rw [← bottom, ← levels]
    exact ordered.nodup 0
  case sorted =>
    rw [← bottom, ← levels]
    exact ordered.sorted 0
  case newestFirst =>
    have old : chain.Pairwise fun earlier later =>
        (slist.insert anchor remote type level).anchorOf earlier =
          (slist.insert anchor remote type level).anchorOf later → later < earlier := by
      apply towers.newestFirst.imp_of_mem
      intro earlier later earlierIn laterIn newest same
      rw [sameAnchor _ (towers.ne_count earlierIn), sameAnchor _ (towers.ne_count laterIn)] at same
      exact newest same
    rw [← below_append_notBelow slist chain anchor] at old
    obtain ⟨inLower, inUpper, across⟩ := List.pairwise_append.mp old
    apply List.pairwise_append.mpr
    refine ⟨inLower, List.pairwise_cons.mpr ⟨fun later isMember _ => ?_, inUpper⟩, ?_⟩
    · exact towers.known later (List.mem_cons_of_mem _ (notBelow_subset _ _ _ isMember))
    · intro earlier earlierIn later laterIn same
      rcases List.mem_cons.mp laterIn with isNew | isOld
      · have newAnchor : (slist.insert anchor remote type level).anchorOf slist.count = anchor := created.anchor
        rw [isNew, newAnchor, sameAnchor _ (towers.ne_count (below_subset _ _ _ earlierIn))] at same
        exact absurd same (anchorOf_below earlierIn).ne
      · exact across earlier earlierIn later isOld same
  case tall => exact tall
  case low =>
    intro node isMember
    by_contra above
    have none := (levels _).symm.trans (ordered.low _ (Nat.le_refl _))
    have onTop : node ∈ onLevel (slist.insertedChain chain anchor) (Function.update height slist.count level)
        (slist.insert anchor remote type level).currentLevel :=
      List.mem_filter.mpr ⟨isMember, decide_eq_true (not_le.mp above)⟩
    exact List.ne_nil_of_mem onTop none
  case known =>
    rw [← bottom, ← levels]
    exact ordered.known 0
  case headAnchor => exact ordered.headAnchor

end Insertion

/-! ### Removal -/

/-- The loop unlinks the node from the levels it is on, which are the lowest ones. -/
theorem unlinkLevels_spec (update : Nat → NodeId) (node : NodeId) (top : Nat) {places : List Nat}
    (increasing : places.Pairwise fun low high => low < high)
    (isOn : ∀ level ∈ places, slist.forward level (update level) = some node ↔ level < top) :
    SameNodes (unlinkLevels update node places slist) slist ∧
      (unlinkLevels update node places slist).currentLevel = slist.currentLevel ∧
      ∀ level, (unlinkLevels update node places slist).forward level =
        if level ∈ places ∧ level < top then
          Function.update (slist.forward level) (update level) (slist.forward level node)
        else slist.forward level := by
  induction places generalizing slist with
  | nil => exact ⟨.refl _, rfl, fun level => (if_neg fun inNil => (nomatch inNil.1)).symm⟩
  | cons first places ih =>
    obtain ⟨firstLow, increasing⟩ := List.pairwise_cons.mp increasing
    unfold unlinkLevels
    by_cases onFirst : first < top
    · rw [if_pos ((isOn first List.mem_cons_self).mpr onFirst)]
      have others : ∀ level ≠ first,
          (slist.setForward first (update first) (slist.forward first node)).forward level =
            slist.forward level := by
        intro level differs
        rw [forward_setForward, if_neg differs]
      obtain ⟨same, current, forwards⟩ := ih increasing fun level isLater => by
        rw [others level (firstLow level isLater).ne']
        exact isOn level (List.mem_cons_of_mem _ isLater)
      refine ⟨same.trans (sameNodes_setForward _ _ _ _), current, fun level => ?_⟩
      rw [forwards]
      by_cases isFirst : level = first
      · subst isFirst
        rw [if_neg (fun later => (firstLow level later.1).ne rfl), if_pos ⟨List.mem_cons_self, onFirst⟩,
          forward_setForward, if_pos rfl]
      · rw [others level isFirst]
        simp only [List.mem_cons, isFirst, false_or]
    · rw [if_neg fun onLevel => onFirst ((isOn first List.mem_cons_self).mp onLevel)]
      refine ⟨.refl _, rfl, fun level => (if_neg ?_).symm⟩
      rintro ⟨isPlace, below⟩
      rcases List.mem_cons.mp isPlace with isFirst | isLater
      · exact onFirst (isFirst ▸ below)
      · exact onFirst ((firstLow level isLater).trans below)

/-- The levels given up are empty, and the last one kept is not. -/
theorem lowered_spec (slist : SkipList) (top : Nat) :
    slist.lowered top ≤ top ∧
      (∀ level, slist.lowered top ≤ level → level < top → slist.forward level head = none) := by
  induction top with
  | zero => exact ⟨le_rfl, fun level _ below => absurd below (Nat.not_lt_zero level)⟩
  | succ top ih =>
    unfold lowered
    by_cases empty : slist.forward top head = none
    · rw [if_pos empty]
      refine ⟨ih.1.trans (Nat.le_succ top), fun level above below => ?_⟩
      rcases Nat.lt_succ_iff_lt_or_eq.mp below with lower | isTop
      · exact ih.2 level above lower
      · rw [isTop]
        exact empty
    · rw [if_neg empty]
      exact ⟨le_rfl, fun level above below => absurd below (not_lt.mpr above)⟩

section Removal

variable {node : NodeId} {after : List NodeId}

theorem Towers.update_eq (towers : slist.Towers chain height) (anchor : Str) (level : Nat) :
    slist.predecessors anchor 0 level = (onLevel (slist.below chain anchor) height level).getLastD head := by
  rw [towers.predecessors_eq, ← towers.below_onLevel]
  rfl

theorem Towers.parts (towers : slist.Towers chain height) (anchor : Str) (level : Nat) :
    Linked (slist.forward level) head
      (onLevel (slist.below chain anchor) height level ++ onLevel (slist.notBelow chain anchor) height level) := by
  rw [← onLevel_append, below_append_notBelow]
  exact towers.linked level

theorem Towers.forward_update (towers : slist.Towers chain height) (anchor : Str) (level : Nat) :
    slist.forward level (slist.predecessors anchor 0 level) =
      (onLevel (slist.notBelow chain anchor) height level).head? := by
  rw [towers.update_eq]
  exact (towers.parts anchor level).next_of_append

theorem Towers.parts_nodup (towers : slist.Towers chain height) (anchor : Str) :
    (head :: (slist.below chain anchor ++ slist.notBelow chain anchor)).Nodup := by
  rw [below_append_notBelow]
  exact towers.nodup

/-- The first node that is not below the anchor is unlinked from exactly its levels. -/
theorem Towers.isOn (towers : slist.Towers chain height) (isUpper : slist.notBelow chain anchor = node :: after)
    (level : Nat) :
    slist.forward level (slist.predecessors anchor 0 level) = some node ↔ level < height node := by
  rw [towers.forward_update, isUpper, onLevel_cons]
  by_cases below : level < height node
  · rw [if_pos below]
    exact iff_of_true rfl below
  · rw [if_neg below]
    refine iff_of_false (fun isNext => ?_) below
    have nodup := (List.nodup_append.mp (List.nodup_cons.mp (towers.parts_nodup anchor)).2).2.1
    rw [isUpper] at nodup
    exact (List.nodup_cons.mp nodup).1 (List.mem_of_mem_filter (List.mem_of_mem_head? isNext))

/-- The list after the unlinking loop of `remove`. -/
def unlinked (slist : SkipList) (anchor : Str) (node : NodeId) : SkipList :=
  slist.unlinkLevels (slist.predecessors anchor 0) node (List.range slist.currentLevel)

/-- The list before `remove` lowers `current_level`. -/
def repaired (slist : SkipList) (anchor : Str) (node : NodeId) : SkipList :=
  match (slist.unlinked anchor node).forward 0 node with
  | some next => (slist.unlinked anchor node).setBackward next ((slist.unlinked anchor node).nodes node).backward
  | none => slist.unlinked anchor node

theorem Towers.remove_eq (towers : slist.Towers chain height)
    (isUpper : slist.notBelow chain anchor = node :: after) (same : slist.anchorOf node = anchor) :
    slist.remove anchor =
      (true, { slist.repaired anchor node with
        currentLevel := (slist.repaired anchor node).lowered (slist.repaired anchor node).currentLevel }) := by
  have walked : slist.forward 0 (slist.descend anchor 0 slist.currentLevel head fun _ => head).1 = some node := by
    have stop := towers.forward_update anchor 0
    rw [towers.predecessors_eq, onLevel_zero towers, ← (towers.descend_eq anchor).1, isUpper, onLevel_cons,
      if_pos (towers.tall node (notBelow_subset _ _ _ (isUpper ▸ List.mem_cons_self)))] at stop
    exact stop
  unfold remove
  simp only [walked]
  rw [if_pos same]
  rfl

theorem Towers.unlinked_spec (towers : slist.Towers chain height)
    (isUpper : slist.notBelow chain anchor = node :: after) :
    SameNodes (slist.unlinked anchor node) slist ∧
      (slist.unlinked anchor node).currentLevel = slist.currentLevel ∧
      (∀ level, Linked ((slist.unlinked anchor node).forward level) head
        (onLevel (slist.below chain anchor ++ after) height level)) ∧
      (slist.unlinked anchor node).forward 0 node = after.head? := by
  have inUpper : node ∈ slist.notBelow chain anchor := by
    rw [isUpper]
    exact List.mem_cons_self
  have inChain := notBelow_subset _ _ _ inUpper
  obtain ⟨same, current, forwards⟩ := unlinkLevels_spec (slist.predecessors anchor 0) node (height node)
    List.pairwise_lt_range fun level _ => towers.isOn isUpper level
  have forwards : ∀ level, (slist.unlinked anchor node).forward level =
      if level < height node then
        Function.update (slist.forward level) (slist.predecessors anchor 0 level) (slist.forward level node)
      else slist.forward level := by
    intro level
    have low := towers.low node inChain
    apply (forwards level).trans
    simp only [List.mem_range]
    by_cases below : level < height node
    · rw [if_pos ⟨below.trans_le low, below⟩, if_pos below]
    · rw [if_neg fun both => below both.2, if_neg below]
  have linkedAll : ∀ level, Linked ((slist.unlinked anchor node).forward level) head
      (onLevel (slist.below chain anchor ++ after) height level) := by
    intro level
    have parts := towers.parts anchor level
    have nodup : (head :: (onLevel (slist.below chain anchor) height level ++
        onLevel (slist.notBelow chain anchor) height level)).Nodup := by
      rw [← onLevel_append]
      exact (towers.parts_nodup anchor).sublist (List.Sublist.cons_cons _ List.filter_sublist)
    rw [forwards, onLevel_append]
    rw [isUpper, onLevel_cons] at parts nodup
    by_cases below : level < height node
    · rw [if_pos below] at parts nodup
      rw [if_pos below, towers.update_eq]
      exact parts.unlink nodup
    · rw [if_neg below] at parts
      rw [if_neg below]
      exact parts
  refine ⟨same, current, linkedAll, ?_⟩
  have tall := towers.tall node inChain
  have parts := towers.parts anchor 0
  rw [forwards, if_pos tall, Function.update_of_ne]
  · rw [isUpper, onLevel_cons, if_pos tall] at parts
    rw [parts.suffix.next_eq_head?]
    congr 1
    apply List.filter_eq_self.mpr
    intro other isLater
    apply decide_eq_true (towers.tall other (notBelow_subset slist chain anchor _))
    rw [isUpper]
    exact List.mem_cons_of_mem _ isLater
  · rw [towers.update_eq]
    intro isLast
    have inFront : node ∈ head :: slist.below chain anchor := by
      rw [isLast]
      apply List.cons_subset_cons _ _ List.getLastD_mem_cons
      exact List.filter_subset_self _
    have nodup := towers.parts_nodup anchor
    rw [← List.cons_append] at nodup
    exact List.disjoint_of_nodup_append nodup inFront inUpper

/-- The node behind the removed one points back to the node before it. -/
theorem Towers.repaired_spec (towers : slist.Towers chain height)
    (isUpper : slist.notBelow chain anchor = node :: after) :
    (∀ level, (slist.repaired anchor node).forward level = (slist.unlinked anchor node).forward level) ∧
      (slist.repaired anchor node).currentLevel = slist.currentLevel ∧
      (slist.repaired anchor node).count = slist.count ∧
      (∀ other, (slist.repaired anchor node).anchorOf other = slist.anchorOf other) ∧
      ∀ other, ((slist.repaired anchor node).nodes other).backward =
        if after.head? = some other then (slist.nodes node).backward else (slist.nodes other).backward := by
  obtain ⟨same, current, _, next⟩ := towers.unlinked_spec isUpper
  unfold repaired
  rw [next]
  cases after.head? with
  | none =>
    refine ⟨fun _ => rfl, current, same.count, same.anchor, fun other => ?_⟩
    rw [if_neg (fun isNext => (nomatch isNext))]
    exact same.backward other
  | some next =>
    refine ⟨fun level => forward_setBackward _ _ _ _, current, same.count, fun other => ?_, fun other => ?_⟩
    · change ((SkipList.setBackward _ _ _).nodes other).anchor = _
      rw [nodes_setBackward]
      exact same.anchor other
    · rw [nodes_setBackward]
      by_cases isNext : other = next
      · rw [isNext, if_pos rfl]
        simp only [if_true]
        exact same.backward node
      · rw [if_neg fun isSome => isNext (Option.some.inj isSome).symm]
        simp only [isNext, if_false]
        exact same.backward other

/-- The first node with the anchor is removed from every level, and both neighbours are repaired. -/
theorem Towers.remove (towers : slist.Towers chain height)
    (isUpper : slist.notBelow chain anchor = node :: after) (same : slist.anchorOf node = anchor) :
    (slist.remove anchor).1 = true ∧
      (slist.remove anchor).2.Towers (slist.below chain anchor ++ after) height ∧
      (slist.remove anchor).2.count = slist.count ∧
      ∀ other, (slist.remove anchor).2.anchorOf other = slist.anchorOf other := by
  obtain ⟨_, _, linked, _⟩ := towers.unlinked_spec isUpper
  obtain ⟨forwards, current, count, anchors, backward⟩ := towers.repaired_spec isUpper
  rw [towers.remove_eq isUpper same]
  refine ⟨rfl, ?_, count, anchors⟩
  have within : (slist.below chain anchor ++ after).Sublist chain := by
    conv_rhs => rw [← below_append_notBelow slist chain anchor, isUpper]
    exact (List.Sublist.refl _).append (List.sublist_cons_self _ _)
  have repairedLinked : ∀ level, Linked ((slist.repaired anchor node).forward level) head
      (onLevel (slist.below chain anchor ++ after) height level) := by
    intro level
    rw [forwards]
    exact linked level
  have nodup := towers.parts_nodup anchor
  rw [isUpper] at nodup
  have partsNodup := (List.nodup_cons.mp nodup).2
  constructor
  case linked => exact repairedLinked
  case linkedBack =>
    have old : LinkedBack (fun node => (slist.nodes node).backward) head
        (slist.below chain anchor ++ node :: after) := by
      rw [← isUpper, below_append_notBelow]
      exact towers.linkedBack
    apply old.unlink
    · intro member inLower
      change ((slist.repaired anchor node).nodes member).backward = _
      rw [backward, if_neg]
      intro isNext
      have inAfter := List.mem_cons_of_mem node (List.mem_of_mem_head? isNext)
      exact List.disjoint_of_nodup_append partsNodup inLower inAfter
    · intro next isNext
      change ((slist.repaired anchor node).nodes next).backward = _
      rw [backward, if_pos isNext]
    · intro member inTail
      change ((slist.repaired anchor node).nodes member).backward = _
      rw [backward, if_neg]
      intro isNext
      have afterNodup := (List.nodup_cons.mp (List.nodup_append.mp partsNodup).2.1).2
      rw [← List.cons_head?_tail isNext] at afterNodup
      exact (List.nodup_cons.mp afterNodup).1 inTail
  case nodup => exact towers.nodup.sublist (within.cons_cons _)
  case sorted =>
    apply (towers.sorted.sublist within).imp
    intro earlier later le
    change (slist.repaired anchor node).anchorOf earlier ≤ (slist.repaired anchor node).anchorOf later
    rw [anchors, anchors]
    exact le
  case newestFirst =>
    apply (towers.newestFirst.sublist within).imp
    intro earlier later newest
    change (slist.repaired anchor node).anchorOf earlier = (slist.repaired anchor node).anchorOf later → _
    rw [anchors, anchors]
    exact newest
  case tall => exact fun other isMember => towers.tall other (within.subset isMember)
  case low =>
    intro other isMember
    obtain ⟨_, emptied⟩ := lowered_spec (slist.repaired anchor node) (slist.repaired anchor node).currentLevel
    change height other ≤ (slist.repaired anchor node).lowered (slist.repaired anchor node).currentLevel
    by_contra above
    -- the top level of a tower is not empty
    have tall := towers.tall other (within.subset isMember)
    have low := towers.low other (within.subset isMember)
    have onTop : other ∈ onLevel (slist.below chain anchor ++ after) height (height other - 1) :=
      List.mem_filter.mpr ⟨isMember, decide_eq_true (Nat.sub_one_lt_of_lt tall)⟩
    have none := emptied (height other - 1) (by omega) (by rw [current]; omega)
    rw [(repairedLinked _).next_eq_head?, List.head?_eq_none_iff] at none
    rw [none] at onTop
    cases onTop
  case known =>
    intro other isMember
    change other < (slist.repaired anchor node).count
    rw [count]
    exact towers.known other ((within.cons_cons _).subset isMember)
  case headAnchor => exact (anchors head).trans towers.headAnchor

end Removal

/-! ### Any sequence of insertions and removals -/

/-- The searches stop before the first node that is not below the anchor. -/
theorem Towers.forward_stop (towers : slist.Towers chain height) (anchor : Str) :
    slist.forward 0 (slist.descend anchor 0 slist.currentLevel head fun _ => head).1 =
      (slist.notBelow chain anchor).head? := by
  have parts := towers.parts anchor 0
  rw [← onLevel_append, below_append_notBelow, onLevel_zero towers, ← below_append_notBelow slist chain anchor] at parts
  rw [(towers.descend_eq anchor).1]
  exact parts.next_of_append

theorem Towers.search_eq (towers : slist.Towers chain height) (anchor : Str) :
    slist.search anchor = chain.find? fun node => slist.anchorOf node = anchor := by
  have walked := towers.forward_stop anchor
  rw [find_key towers.sorted]
  change _ = (slist.notBelow chain anchor).head?.filter _
  unfold search
  simp only [walked]
  cases (slist.notBelow chain anchor).head? with
  | none => rfl
  | some next =>
    by_cases same : slist.anchorOf next = anchor
    · simp [Option.filter_some, same]
    · simp [Option.filter_some, same]

/-- One insertion: the node it made, its anchor and its level. -/
structure Insertion where
  node : NodeId
  anchor : Str
  level : Level

/-- The list after any sequence of `insert` and of `remove` of present anchors, with the insertions
that remain, newest first. `remove` takes back the newest one with its anchor. -/
inductive Edited (fakeHead : RemotePointer) : SkipList → List Insertion → Prop
  | empty : Edited fakeHead (empty fakeHead) []
  | insert {slist : SkipList} {remaining : List Insertion} (edited : Edited fakeHead slist remaining)
      (anchor : Str) (remote : RemotePointer) (type : LinkedNodeType) (level : Level) :
      Edited fakeHead (slist.insert anchor remote type level) (⟨slist.count, anchor, level⟩ :: remaining)
  | remove {slist : SkipList} {remaining : List Insertion} (edited : Edited fakeHead slist remaining)
      (anchor : Str) (present : ∃ insertion ∈ remaining, insertion.anchor = anchor) :
      Edited fakeHead (slist.remove anchor).2 (remaining.eraseP fun insertion => insertion.anchor = anchor)

/-- The towers are those of the remaining insertions. -/
structure Remembers (slist : SkipList) (chain : List NodeId) (height : NodeId → Nat)
    (remaining : List Insertion) : Prop where
  towers : slist.Towers chain height
  members : chain.Perm (remaining.map (·.node))
  anchor : ∀ insertion ∈ remaining, slist.anchorOf insertion.node = insertion.anchor
  height : ∀ insertion ∈ remaining, height insertion.node = insertion.level
  newestFirst : remaining.Pairwise fun newer older => older.node < newer.node

theorem Remembers.mem_chain {remaining : List Insertion} (remembers : slist.Remembers chain height remaining)
    {insertion : Insertion} (isMember : insertion ∈ remaining) : insertion.node ∈ chain :=
  remembers.members.mem_iff.mpr (List.mem_map_of_mem isMember)

theorem Remembers.insert {remaining : List Insertion} (remembers : slist.Remembers chain height remaining)
    (anchor : Str) (remote : RemotePointer) (type : LinkedNodeType) (level : Level) :
    (slist.insert anchor remote type level).Remembers (slist.insertedChain chain anchor)
      (Function.update height slist.count level) (⟨slist.count, anchor, level⟩ :: remaining) := by
  obtain ⟨towers, _, newAnchor, sameAnchor⟩ := remembers.towers.insert anchor remote type level.2.1
  have older : ∀ insertion ∈ remaining, insertion.node ≠ slist.count := fun insertion isMember =>
    remembers.towers.ne_count (remembers.mem_chain isMember)
  constructor
  case towers => exact towers
  case members => exact (insertedChain_perm slist chain anchor).trans (remembers.members.cons _)
  case anchor =>
    intro insertion isMember
    rcases List.mem_cons.mp isMember with isNew | isOld
    · rw [isNew]
      exact newAnchor
    · rw [sameAnchor _ (older insertion isOld)]
      exact remembers.anchor insertion isOld
  case height =>
    intro insertion isMember
    rcases List.mem_cons.mp isMember with isNew | isOld
    · rw [isNew]
      exact Function.update_self _ _ _
    · rw [Function.update_of_ne (older insertion isOld)]
      exact remembers.height insertion isOld
  case newestFirst =>
    apply List.pairwise_cons.mpr ⟨fun insertion isMember => ?_, remembers.newestFirst⟩
    exact remembers.towers.known _ (List.mem_cons_of_mem _ (remembers.mem_chain isMember))

/-- The search finds the newest of the remaining insertions. -/
theorem Remembers.search_eq {remaining : List Insertion} (remembers : slist.Remembers chain height remaining)
    (anchor : Str) :
    slist.search anchor =
      (remaining.find? fun insertion => insertion.anchor = anchor).map (·.node) := by
  have chainHits : chain.Pairwise fun earlier later => decide (slist.anchorOf earlier = anchor) →
      decide (slist.anchorOf later = anchor) → later < earlier := by
    apply remembers.towers.newestFirst.imp
    intro earlier later newest earlierHit laterHit
    exact newest ((of_decide_eq_true earlierHit).trans (of_decide_eq_true laterHit).symm)
  have remainingHits : (remaining.map (·.node)).Pairwise fun earlier later =>
      decide (slist.anchorOf earlier = anchor) → decide (slist.anchorOf later = anchor) → later < earlier :=
    List.pairwise_map.mpr (remembers.newestFirst.imp fun newer _ _ => newer)
  rw [remembers.towers.search_eq, find_eq_of_perm remembers.members chainHits remainingHits, List.find?_map]
  congr 1
  apply List.find?_congr
  intro insertion isMember
  change decide (slist.anchorOf insertion.node = anchor) = _
  rw [remembers.anchor insertion isMember]

theorem Remembers.remove {remaining : List Insertion} (remembers : slist.Remembers chain height remaining)
    {anchor : Str} (present : ∃ insertion ∈ remaining, insertion.anchor = anchor) :
    ∃ left : List NodeId, (slist.remove anchor).1 = true ∧
      (slist.remove anchor).2.Remembers left height
        (remaining.eraseP fun insertion => insertion.anchor = anchor) := by
  obtain ⟨insertion, isMember, isAnchor⟩ := present
  obtain ⟨removed, newer, older, notNewer, isRemoved, parts, erased⟩ :=
    List.exists_of_eraseP (p := fun insertion : Insertion => decide (insertion.anchor = anchor)) isMember
      (decide_eq_true isAnchor)
  have removedIn : removed ∈ remaining := by
    rw [parts]
    exact List.mem_append_right _ List.mem_cons_self
  -- the search finds what is taken back
  have found : slist.search anchor = some removed.node := by
    rw [remembers.search_eq, parts, List.find?_append, List.find?_eq_none.mpr notNewer, Option.none_or,
      List.find?_cons_of_pos (p := fun insertion : Insertion => decide (insertion.anchor = anchor)) isRemoved]
    rfl
  rw [remembers.towers.search_eq, find_key remembers.towers.sorted] at found
  obtain ⟨isHead, hasAnchor⟩ := Option.filter_eq_some_iff.mp found
  obtain ⟨after, isUpper⟩ := List.head?_eq_some_iff.mp isHead
  obtain ⟨isTrue, towers, _, anchors⟩ := remembers.towers.remove isUpper (of_decide_eq_true hasAnchor)
  refine ⟨slist.below chain anchor ++ after, isTrue, ?_⟩
  have within : newer ++ older ⊆ remaining := by
    rw [parts]
    exact (List.Sublist.append (List.Sublist.refl _) (List.sublist_cons_self _ _)).subset
  have chainParts : slist.below chain anchor ++ removed.node :: after = chain := by
    change slist.notBelow chain anchor = _ at isUpper
    rw [← isUpper, below_append_notBelow]
  rw [erased]
  constructor
  case towers => exact towers
  case members =>
    have members := remembers.members
    rw [parts, ← chainParts, List.map_append, List.map_cons] at members
    rw [List.map_append]
    exact ((List.perm_middle.symm.trans members).trans List.perm_middle).cons_inv
  case anchor =>
    intro insertion isLeft
    rw [anchors]
    exact remembers.anchor insertion (within isLeft)
  case height => exact fun insertion isLeft => remembers.height insertion (within isLeft)
  case newestFirst =>
    have leftOut : (newer ++ older).Sublist remaining := by
      rw [parts]
      exact (List.Sublist.refl _).append (List.sublist_cons_self _ _)
    exact List.Pairwise.sublist leftOut remembers.newestFirst

/-- What the list looks like from outside. -/
structure Represents (slist : SkipList) (levels : Nat → List NodeId) (remaining : List Insertion) : Prop where
  linked : ∀ level, Linked (slist.forward level) head (levels level)
  sorted : ∀ level, SortedBy slist.anchorOf (levels level)
  nested : ∀ level, (levels (level + 1)).Sublist (levels level)
  exactLevels : ∀ insertion ∈ remaining, ∀ level, insertion.node ∈ levels level ↔ level < insertion.level
  linkedBack : LinkedBack (fun node => (slist.nodes node).backward) head (levels 0)
  headNone : ∀ level, slist.currentLevel ≤ level → (slist.nodes head).forwards level = none
  nodes : (levels 0).Perm (remaining.map (·.node))
  anchors : ((levels 0).map slist.anchorOf).Perm (remaining.map (·.anchor))
  search : ∀ anchor, slist.search anchor =
    (remaining.find? fun insertion => insertion.anchor = anchor).map (·.node)

theorem Remembers.represents {remaining : List Insertion} (remembers : slist.Remembers chain height remaining) :
    slist.Represents (onLevel chain height) remaining where
  linked := remembers.towers.linked
  sorted level := remembers.towers.sorted.sublist List.filter_sublist
  nested := onLevel_sublist chain height
  exactLevels insertion isMember level := by
    unfold onLevel
    rw [List.mem_filter, decide_eq_true_eq, remembers.height insertion isMember]
    exact and_iff_right (remembers.mem_chain isMember)
  linkedBack := by
    rw [onLevel_zero remembers.towers]
    exact remembers.towers.linkedBack
  headNone level above := remembers.towers.head_none above
  nodes := by
    rw [onLevel_zero remembers.towers]
    exact remembers.members
  anchors := by
    rw [onLevel_zero remembers.towers]
    apply (remembers.members.map _).trans
    rw [List.map_map]
    apply List.Perm.of_eq
    apply List.map_congr_left
    intro insertion isMember
    exact remembers.anchor insertion isMember
  search := remembers.search_eq

theorem Edited.remembered {fakeHead : RemotePointer} {remaining : List Insertion}
    (edited : Edited fakeHead slist remaining) : ∃ chain height, slist.Remembers chain height remaining := by
  induction edited with
  | empty =>
      refine ⟨[], fun _ => 0, towers_empty fakeHead _, List.Perm.nil, ?_, ?_, List.Pairwise.nil⟩
      · exact fun insertion isMember => (nomatch isMember)
      · exact fun insertion isMember => (nomatch isMember)
  | insert edited anchor remote type level ih =>
      obtain ⟨chain, height, remembers⟩ := ih
      exact ⟨_, _, remembers.insert anchor remote type level⟩
  | remove edited anchor present ih =>
      obtain ⟨chain, height, remembers⟩ := ih
      obtain ⟨left, _, after⟩ := remembers.remove present
      exact ⟨left, height, after⟩

/-- After any insertions and removals of present anchors the levels are as they should be. -/
theorem edited_represents {fakeHead : RemotePointer} {remaining : List Insertion}
    (edited : Edited fakeHead slist remaining) :
    ∃ levels : Nat → List NodeId, slist.Represents levels remaining := by
  obtain ⟨chain, height, remembers⟩ := edited.remembered
  exact ⟨onLevel chain height, remembers.represents⟩

/-- Two nodes with one anchor and of different heights; the newer one is removed. -/
theorem twins_represented :
    ∃ levels : Nat → List NodeId,
      ((((empty nullptr).insert [1] nullptr .type10 2).insert [1] nullptr .type10 16).remove [1]).2.Represents
        levels [⟨1, [1], ⟨2, by decide⟩⟩] := by
  have start : Edited nullptr (empty nullptr) [] := .empty
  have edited := (start.insert [1] nullptr .type10 ⟨2, by decide⟩).insert [1] nullptr .type10 ⟨16, by decide⟩
  exact edited_represents (edited.remove [1] ⟨_, List.mem_cons_self, rfl⟩)

end DiStore.SearchLayer.SkipList
