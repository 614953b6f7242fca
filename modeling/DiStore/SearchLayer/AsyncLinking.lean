import DiStore.SearchLayer.PlainWalk

/-!
Contract: linking in the background against linking at once.

Owns: the run in which new nodes are linked at the bottom by `async_update` and at
their upper levels by later `calibrate` calls, next to the run that inserts the same
anchors with the same levels, and the relation that ties the two lists.

The towers of both lists are described by a height for each node. A node that waits
for its calibration has height 1; nothing else tells the two lists apart.
-/

set_option autoImplicit false

namespace DiStore.SearchLayer

open DiStore.DataLayer DiStore.Library

namespace SkipList

variable {slist : SkipList} {levels : Nat → List NodeId} {heights : NodeId → Nat} {node : NodeId}
variable {anchor : Str} {level : Nat} {fakeHead : RemotePointer}

/-- A list built by `insert` from distinct anchors. -/
inductive Built (fakeHead : RemotePointer) : SkipList → Prop where
  | empty : Built fakeHead (empty fakeHead)
  | insert {slist : SkipList} (before : Built fakeHead slist) (anchor : Str) (remote : RemotePointer)
      (type : LinkedNodeType) (level : Level)
      (absent : ∀ node ∈ slist.levelChain 0, slist.anchorOf node ≠ anchor) :
      Built fakeHead (slist.insert anchor remote type level.val)

/-- A run of `async_update` and `calibrate` calls from `base`, with the queue of nodes not
yet calibrated, and the list that the same anchors give when they are inserted. -/
inductive Background (base : SkipList) : SkipList → List (NodeId × Nat) → SkipList → Prop where
  | start : Background base base [] base
  | asyncUpdate {slist inserted : SkipList} {waiting : List (NodeId × Nat)}
      (before : Background base slist waiting inserted) {dataNode : NodeId} (anchor : Str)
      (remote : RemotePointer) (type : LinkedNodeType) (level : Level)
      (absent : ∀ node ∈ slist.levelChain 0, slist.anchorOf node ≠ anchor)
      (isPredecessor : dataNode = slist.predecessorOf anchor) :
      Background base (slist.linkBehind dataNode anchor type remote).2
        (if level.val = 1 then waiting else waiting ++ [(slist.count, level.val)])
        (inserted.insert anchor remote type level.val)
  | calibrate {slist inserted : SkipList} {waiting : List (NodeId × Nat)}
      (before : Background base slist waiting inserted) {entry : NodeId × Nat} (waits : entry ∈ waiting) :
      Background base (slist.calibrate entry.1 entry.2) (waiting.erase entry) inserted

/-! ### Towers -/

/-- The list whose nodes have these heights, with distinct anchors. -/
structure Tower (slist : SkipList) (levels : Nat → List NodeId) (heights : NodeId → Nat) : Prop where
  ordered : slist.Ordered levels
  strict : StrictlySortedBy slist.anchorOf (levels 0)
  members : ∀ level node, node ∈ levels level ↔ node ≠ head ∧ node < slist.count ∧ level < heights node
  positive : ∀ node, node ≠ head → node < slist.count → 0 < heights node
  bounded : ∀ node, node ≠ head → node < slist.count → heights node ≤ slist.currentLevel
  attained : slist.currentLevel = 1 ∨
    ∃ node, node ≠ head ∧ node < slist.count ∧ heights node = slist.currentLevel

theorem tower_empty (fakeHead : RemotePointer) (heights : NodeId → Nat) :
    Tower (empty fakeHead) (fun _ => []) heights where
  ordered := ordered_empty fakeHead
  strict := List.Pairwise.nil
  members level node := by
    apply iff_of_false List.not_mem_nil
    rintro ⟨notHead, known, _⟩
    exact notHead (Nat.lt_one_iff.mp known)
  positive node notHead known := absurd (Nat.lt_one_iff.mp known) notHead
  bounded node notHead known := absurd (Nat.lt_one_iff.mp known) notHead
  attained := .inl rfl

theorem Tower.strict_level (tower : Tower slist levels heights) (level : Nat) :
    StrictlySortedBy slist.anchorOf (levels level) := by
  have within : ∀ level, levels level ⊆ levels 0 := by
    intro level
    induction level with
    | zero => exact List.Subset.refl _
    | succ level ih => exact List.Subset.trans (tower.ordered.nested level) ih
  apply (List.Pairwise.and (tower.ordered.sorted level)
    (List.nodup_cons.mp (tower.ordered.nodup level)).2).imp_of_mem
  intro left right leftIn rightIn both
  apply lt_of_le_of_ne both.1
  intro same
  exact both.2 (tower.strict.eq_of_key_eq (within level leftIn) (within level rightIn) same)

/-- Strictness survives the insertion of an anchor that is not there. -/
theorem strict_inserted (ordered : slist.Ordered levels)
    (strict : StrictlySortedBy slist.anchorOf (levels 0))
    (absent : ∀ node ∈ levels 0, slist.anchorOf node ≠ anchor) {result : SkipList}
    (old : ∀ node ∈ levels 0, result.anchorOf node = slist.anchorOf node)
    (new : result.anchorOf slist.count = anchor) :
    StrictlySortedBy result.anchorOf
      (slist.below (levels 0) anchor ++ slist.count :: slist.notBelow (levels 0) anchor) := by
  have sorted : StrictlySortedBy result.anchorOf
      (slist.below (levels 0) anchor ++ slist.notBelow (levels 0) anchor) := by
    rw [below_append_notBelow]
    apply strict.imp_of_mem
    intro left right leftIn rightIn less
    rw [old left leftIn, old right rightIn]
    exact less
  have lower : ∀ node ∈ slist.below (levels 0) anchor, result.anchorOf node < anchor := by
    intro node isMember
    rw [old node (below_subset _ _ _ isMember)]
    exact anchorOf_below isMember
  have higher : ∀ node ∈ slist.notBelow (levels 0) anchor, anchor < result.anchorOf node := by
    intro node isMember
    rw [old node (notBelow_subset _ _ _ isMember)]
    exact lt_of_le_of_ne (ordered.le_anchorOf_notBelow isMember)
      (absent node (notBelow_subset _ _ _ isMember)).symm
  obtain ⟨first, second, across⟩ := List.pairwise_append.mp sorted
  apply List.pairwise_append.mpr
  refine ⟨first, List.pairwise_cons.mpr ⟨fun node isMember => ?_, second⟩,
    fun left leftIn right rightIn => ?_⟩
  · rw [new]
    exact higher node isMember
  · rcases List.mem_cons.mp rightIn with isNew | isOld
    · rw [isNew, new]
      exact lower left leftIn
    · exact across left leftIn right isOld

/-- A new node of height `height`, linked on the levels below it. -/
theorem Tower.grown (tower : Tower slist levels heights) {result : SkipList} {places : List Nat}
    {before after : Nat → List NodeId} {height : Nat}
    (ordered : result.Ordered (insertedLevels levels before after places slist.count))
    (strict : StrictlySortedBy result.anchorOf
      (insertedLevels levels before after places slist.count 0))
    (splits : ∀ place ∈ places, levels place = before place ++ after place)
    (isPlaces : ∀ place, place ∈ places ↔ place < height) (tall : 0 < height)
    (count : result.count = slist.count + 1)
    (current : result.currentLevel = max slist.currentLevel height) :
    Tower result (insertedLevels levels before after places slist.count)
      (Function.update heights slist.count height) := by
  have isNew : slist.count ≠ head := fun isHead =>
    tower.ordered.count_notMem 0 (isHead ▸ List.mem_cons_self)
  have cases' : ∀ node, node < result.count ↔ node = slist.count ∨ node < slist.count := by
    intro node
    omega
  refine ⟨ordered, strict, ?_, ?_, ?_, ?_⟩
  · intro place node
    rw [mem_insertedLevels splits, tower.members, isPlaces, cases']
    by_cases isLast : node = slist.count
    · subst isLast
      simp [isNew]
    · rw [Function.update_of_ne isLast]
      simp [isLast]
  · intro node notHead known
    by_cases isLast : node = slist.count
    · rw [isLast, Function.update_self]
      exact tall
    · rw [Function.update_of_ne isLast]
      exact tower.positive node notHead (((cases' node).mp known).resolve_left isLast)
  · intro node notHead known
    rw [current]
    by_cases isLast : node = slist.count
    · rw [isLast, Function.update_self]
      exact le_max_right _ _
    · rw [Function.update_of_ne isLast]
      exact (tower.bounded node notHead (((cases' node).mp known).resolve_left isLast)).trans
        (le_max_left _ _)
  · rw [current]
    rcases le_total slist.currentLevel height with raised | kept
    · refine .inr ⟨slist.count, isNew, (cases' _).mpr (.inl rfl), ?_⟩
      rw [Function.update_self, max_eq_right raised]
    · rw [max_eq_left kept]
      rcases tower.attained with isOne | ⟨node, notHead, known, isHeight⟩
      · exact .inl isOne
      · refine .inr ⟨node, notHead, (cases' _).mpr (.inr known), ?_⟩
        rw [Function.update_of_ne known.ne, isHeight]

theorem currentLevel_insert (slist : SkipList) (anchor : Str) (remote : RemotePointer)
    (type : LinkedNodeType) (level : Nat) :
    (slist.insert anchor remote type level).currentLevel = max slist.currentLevel level := by
  obtain ⟨linked, isLinked, inserted⟩ := insert_eq slist anchor remote type level
  have current : linked.currentLevel = max slist.currentLevel level := by
    rw [isLinked]
    exact (linkLevels_spec _ _ _ List.nodup_range).2.1
  rw [inserted]
  split
  next => exact current
  next => exact current

theorem Tower.insert (tower : Tower slist levels heights) (anchor : Str) (remote : RemotePointer)
    (type : LinkedNodeType) (level : Level) (absent : ∀ node ∈ levels 0, slist.anchorOf node ≠ anchor) :
    ∃ next, Tower (slist.insert anchor remote type level.val) next
        (Function.update heights slist.count level.val) ∧
      Created slist (slist.insert anchor remote type level.val) anchor remote type
        ((slist.below (levels 0) anchor).getLastD head) (slist.notBelow (levels 0) anchor).head? := by
  obtain ⟨ordered, created⟩ := tower.ordered.insert anchor remote type level.property.1
  refine ⟨_, tower.grown ordered ?_ (fun place _ => (below_append_notBelow slist (levels place) anchor).symm)
    (fun place => List.mem_range) level.property.1 created.count (currentLevel_insert _ _ _ _ _), created⟩
  rw [insertedLevels, if_pos (List.mem_range.mpr level.property.1)]
  apply strict_inserted tower.ordered tower.strict absent
  · intro node isMember
    exact (created.old node (tower.ordered.known 0 node (List.mem_cons_of_mem _ isMember)).ne).1
  · exact created.anchor

theorem Tower.linkBehind (tower : Tower slist levels heights) (anchor : Str) (remote : RemotePointer)
    (type : LinkedNodeType) (absent : ∀ node ∈ levels 0, slist.anchorOf node ≠ anchor) :
    ∃ next, Tower (slist.linkBehind (slist.predecessorOf anchor) anchor type remote).2 next
        (Function.update heights slist.count 1) ∧
      Created slist (slist.linkBehind (slist.predecessorOf anchor) anchor type remote).2 anchor remote type
        (slist.predecessorOf anchor) none := by
  have ordered := tower.ordered.linkBehind_predecessor anchor remote type
  obtain ⟨_, created⟩ := linkBehind_created slist (slist.predecessorOf anchor) anchor remote type
  refine ⟨_, tower.grown ordered ?_ ?_ ?_ Nat.one_pos created.count ?_, created⟩
  · rw [insertedLevels, if_pos (List.mem_singleton.mpr rfl)]
    apply strict_inserted tower.ordered tower.strict absent
    · intro node isMember
      exact (created.old node (tower.ordered.known 0 node (List.mem_cons_of_mem _ isMember)).ne).1
    · exact created.anchor
  · intro place isPlace
    rw [List.mem_singleton.mp isPlace]
    exact (below_append_notBelow slist (levels 0) anchor).symm
  · intro place
    rw [List.mem_singleton]
    omega
  · exact (max_eq_left tower.ordered.bottom).symm

theorem Tower.calibrate (tower : Tower slist levels heights) (notHead : node ≠ head)
    (known : node < slist.count) (low : heights node = 1) (tall : 0 < level) :
    ∃ next, Tower (slist.calibrate node level) next (Function.update heights node level) := by
  have isBottom : node ∈ levels 0 := (tower.members 0 node).mpr ⟨notHead, known, by omega⟩
  have notUpper : node ∉ levels 1 := by
    rw [tower.members, low]
    exact fun both => absurd both.2.2 (by omega)
  have same := sameNodes_calibrate slist node level
  have current : (slist.calibrate node level).currentLevel = max slist.currentLevel level :=
    (linkLevels_spec _ _ _ List.nodup_range').2.1
  refine ⟨_, tower.ordered.calibrate isBottom notUpper level, ?_, ?_, ?_, ?_, ?_⟩
  · have notZero : 0 ∉ List.range' 1 (level - 1) := by
      rw [List.mem_range'_1]
      omega
    rw [insertedLevels, if_neg notZero]
    apply tower.strict.imp
    intro left right less
    change (SkipList.nodes _ left).anchor < (SkipList.nodes _ right).anchor
    rw [same.anchor, same.anchor]
    exact less
  · intro place other
    rw [mem_insertedLevels fun place _ => (below_append_notBelow slist (levels place) _).symm, tower.members,
      List.mem_range'_1, same.count]
    by_cases isNode : other = node
    · rw [isNode, Function.update_self, low]
      constructor
      · rintro (⟨_, _, bottom⟩ | ⟨range, _⟩)
        · exact ⟨notHead, known, by omega⟩
        · exact ⟨notHead, known, by omega⟩
      · rintro ⟨_, _, below⟩
        by_cases isZero : place = 0
        · exact .inl ⟨notHead, known, by omega⟩
        · exact .inr ⟨by omega, rfl⟩
    · rw [Function.update_of_ne isNode]
      simp [isNode]
  · intro other otherNotHead otherKnown
    rw [same.count] at otherKnown
    by_cases isNode : other = node
    · rw [isNode, Function.update_self]
      exact tall
    · rw [Function.update_of_ne isNode]
      exact tower.positive other otherNotHead otherKnown
  · intro other otherNotHead otherKnown
    rw [same.count] at otherKnown
    rw [current]
    by_cases isNode : other = node
    · rw [isNode, Function.update_self]
      exact le_max_right _ _
    · rw [Function.update_of_ne isNode]
      exact (tower.bounded other otherNotHead otherKnown).trans (le_max_left _ _)
  · rw [current, same.count]
    rcases le_total slist.currentLevel level with raised | kept
    · refine .inr ⟨node, notHead, known, ?_⟩
      rw [Function.update_self, max_eq_right raised]
    · rw [max_eq_left kept]
      rcases tower.attained with isOne | ⟨other, otherNotHead, otherKnown, isHeight⟩
      · exact .inl isOne
      · by_cases isNode : other = node
        · -- the node had height 1, and so has the list
          rw [isNode, low] at isHeight
          exact .inl isHeight.symm
        · refine .inr ⟨other, otherNotHead, otherKnown, ?_⟩
          rw [Function.update_of_ne isNode, isHeight]

/-- Two lists of the same anchors and heights have the same levels. -/
theorem Tower.unique {other : SkipList} {otherLevels : Nat → List NodeId} {otherHeights : NodeId → Nat}
    (tower : Tower slist levels heights) (also : Tower other otherLevels otherHeights)
    (count : slist.count = other.count)
    (anchors : ∀ node < slist.count, slist.anchorOf node = other.anchorOf node)
    (same : ∀ node, node ≠ head → node < slist.count → heights node = otherHeights node) :
    slist.currentLevel = other.currentLevel ∧ levels = otherLevels := by
  have bottom := tower.ordered.bottom
  have otherBottom := also.ordered.bottom
  constructor
  · apply le_antisymm
    · rcases tower.attained with isOne | ⟨node, notHead, known, isHeight⟩
      · omega
      · rw [← isHeight, same node notHead known]
        exact also.bounded node notHead (count ▸ known)
    · rcases also.attained with isOne | ⟨node, notHead, known, isHeight⟩
      · omega
      · rw [← count] at known
        rw [← isHeight, ← same node notHead known]
        exact tower.bounded node notHead known
  · funext level
    apply (tower.strict_level level).ext
    · apply (also.strict_level level).imp_of_mem
      intro left right leftIn rightIn less
      have leftKnown := ((also.members level left).mp leftIn).2.1
      have rightKnown := ((also.members level right).mp rightIn).2.1
      rw [← count] at leftKnown rightKnown
      rw [anchors left leftKnown, anchors right rightKnown]
      exact less
    · intro node
      rw [tower.members, also.members, ← count]
      constructor
      · rintro ⟨notHead, known, below⟩
        exact ⟨notHead, known, same node notHead known ▸ below⟩
      · rintro ⟨notHead, known, below⟩
        exact ⟨notHead, known, (same node notHead known).symm ▸ below⟩

/-! ### Two runs -/

theorem Built.tower (built : Built fakeHead slist) : ∃ levels heights, Tower slist levels heights := by
  induction built with
  | empty => exact ⟨_, fun _ => 0, tower_empty fakeHead _⟩
  | insert _ anchor remote type level absent ih =>
      obtain ⟨levels, heights, tower⟩ := ih
      rw [tower.ordered.levelChain_eq] at absent
      obtain ⟨next, grown, _⟩ := tower.insert anchor remote type level absent
      exact ⟨next, _, grown⟩

/-- The heights while some nodes wait. -/
def loweredHeights (waiting : List (NodeId × Nat)) (heights : NodeId → Nat) (node : NodeId) : Nat :=
  if node ∈ waiting.map Prod.fst then 1 else heights node

/-- The list linked in the background has the inserted one's towers, but for the nodes
that wait. -/
structure Refines (slist : SkipList) (waiting : List (NodeId × Nat)) (inserted : SkipList)
    (levels insertedLevels : Nat → List NodeId) (heights : NodeId → Nat) : Prop where
  tower : Tower slist levels (loweredHeights waiting heights)
  target : Tower inserted insertedLevels heights
  count : slist.count = inserted.count
  anchors : ∀ node < slist.count, slist.anchorOf node = inserted.anchorOf node
  once : (waiting.map Prod.fst).Nodup
  waits : ∀ entry ∈ waiting, entry.1 ≠ head ∧ entry.1 < slist.count ∧ heights entry.1 = entry.2

theorem Tower.congr {other : NodeId → Nat} (tower : Tower slist levels heights)
    (same : ∀ node < slist.count, other node = heights node) : Tower slist levels other where
  ordered := tower.ordered
  strict := tower.strict
  members level node := by
    rw [tower.members]
    constructor
    · rintro ⟨notHead, known, below⟩
      exact ⟨notHead, known, same node known ▸ below⟩
    · rintro ⟨notHead, known, below⟩
      exact ⟨notHead, known, (same node known).symm ▸ below⟩
  positive node notHead known := same node known ▸ tower.positive node notHead known
  bounded node notHead known := same node known ▸ tower.bounded node notHead known
  attained := by
    rcases tower.attained with isOne | ⟨node, notHead, known, isHeight⟩
    · exact .inl isOne
    · exact .inr ⟨node, notHead, known, (same node known).trans isHeight⟩

theorem Refines.asyncUpdate {inserted : SkipList} {waiting : List (NodeId × Nat)}
    {insertedLevels : Nat → List NodeId} (refines : Refines slist waiting inserted levels insertedLevels heights)
    (anchor : Str) (remote : RemotePointer) (type : LinkedNodeType) (level : Level)
    (absent : ∀ node ∈ levels 0, slist.anchorOf node ≠ anchor) :
    ∃ next insertedNext, Refines (slist.linkBehind (slist.predecessorOf anchor) anchor type remote).2
      (if level.val = 1 then waiting else waiting ++ [(slist.count, level.val)])
      (inserted.insert anchor remote type level.val) next insertedNext
      (Function.update heights slist.count level.val) := by
  have count := refines.count
  have isNew : ∀ entry ∈ waiting, entry.1 ≠ slist.count := fun entry isMember =>
    (refines.waits entry isMember).2.1.ne
  have headOld : slist.count ≠ head := fun isHead =>
    refines.tower.ordered.count_notMem 0 (isHead ▸ List.mem_cons_self)
  obtain ⟨next, grown, created⟩ := refines.tower.linkBehind anchor remote type absent
  have insertedAbsent : ∀ node ∈ insertedLevels 0, inserted.anchorOf node ≠ anchor := by
    intro node isMember
    obtain ⟨notHead, known, _⟩ := (refines.target.members 0 node).mp isMember
    rw [← count] at known
    rw [← refines.anchors node known]
    exact absent node ((refines.tower.members 0 node).mpr
      ⟨notHead, known, refines.tower.positive node notHead known⟩)
  obtain ⟨insertedNext, insertedGrown, insertedCreated⟩ :=
    refines.target.insert anchor remote type level insertedAbsent
  rw [← count] at insertedGrown
  refine ⟨next, insertedNext, ?_, insertedGrown, ?_, ?_, ?_, ?_⟩
  · apply grown.congr
    intro node _
    unfold loweredHeights
    by_cases isLast : node = slist.count
    · subst isLast
      have notWaiting : slist.count ∉ waiting.map Prod.fst := by
        intro isMember
        obtain ⟨entry, inWaiting, isEntry⟩ := List.mem_map.mp isMember
        exact isNew entry inWaiting isEntry
      rw [Function.update_self, Function.update_self]
      by_cases one : level.val = 1
      · rw [if_pos one, if_neg notWaiting, one]
      · rw [if_neg one, if_pos (by simp)]
    · rw [Function.update_of_ne isLast, Function.update_of_ne isLast]
      have same : node ∈ (if level.val = 1 then waiting else waiting ++ [(slist.count, level.val)]).map
          Prod.fst ↔ node ∈ waiting.map Prod.fst := by
        split
        next => exact Iff.rfl
        next => simp [isLast]
      simp only [same]
  · rw [created.count, insertedCreated.count, count]
  · intro node known
    rw [created.count] at known
    by_cases isLast : node = slist.count
    · rw [isLast, anchorOf, created.anchor, anchorOf, count, insertedCreated.anchor]
    · have insertedOld : node ≠ inserted.count := count ▸ isLast
      rw [anchorOf, (created.old node isLast).1, anchorOf, (insertedCreated.old node insertedOld).1]
      exact refines.anchors node (by omega)
  · split
    next => exact refines.once
    next =>
      rw [List.map_append, List.nodup_append]
      refine ⟨refines.once, List.nodup_singleton _, ?_⟩
      intro left isLeft right isRight same
      obtain ⟨entry, isMember, isEntry⟩ := List.mem_map.mp isLeft
      rw [List.map_singleton, List.mem_singleton] at isRight
      exact isNew entry isMember (isEntry.trans (same.trans isRight))
  · intro entry isMember
    rw [created.count]
    have known : entry ∈ waiting ∨ entry = (slist.count, level.val) := by
      split at isMember
      next => exact .inl isMember
      next => simpa using isMember
    rcases known with isOld | isLast
    · obtain ⟨notHead, old, isHeight⟩ := refines.waits entry isOld
      refine ⟨notHead, Nat.lt_succ_of_lt old, ?_⟩
      rw [Function.update_of_ne (isNew entry isOld), isHeight]
    · rw [isLast]
      exact ⟨headOld, Nat.lt_succ_self _, Function.update_self _ _ _⟩

theorem Refines.calibrate {inserted : SkipList} {waiting : List (NodeId × Nat)}
    {insertedLevels : Nat → List NodeId} (refines : Refines slist waiting inserted levels insertedLevels heights)
    {entry : NodeId × Nat} (waits : entry ∈ waiting) :
    ∃ next, Refines (slist.calibrate entry.1 entry.2) (waiting.erase entry) inserted next insertedLevels
      heights := by
  obtain ⟨notHead, known, isHeight⟩ := refines.waits entry waits
  have low : loweredHeights waiting heights entry.1 = 1 := if_pos (List.mem_map_of_mem waits)
  have tall : 0 < entry.2 := by
    rw [← isHeight]
    exact refines.target.positive entry.1 notHead (refines.count ▸ known)
  have same := sameNodes_calibrate slist entry.1 entry.2
  obtain ⟨next, grown⟩ := refines.tower.calibrate notHead known low tall
  refine ⟨next, ?_, refines.target, same.count.trans refines.count, ?_, ?_, ?_⟩
  · apply grown.congr
    intro node _
    unfold loweredHeights
    by_cases isNode : node = entry.1
    · have done : entry.1 ∉ (waiting.erase entry).map Prod.fst := by
        intro isMember
        obtain ⟨other, inRest, isOther⟩ := List.mem_map.mp isMember
        have isEntry : other = entry :=
          List.inj_on_of_nodup_map refines.once (List.mem_of_mem_erase inRest) waits isOther
        rw [isEntry] at inRest
        exact (refines.once.of_map _).not_mem_erase inRest
      rw [isNode, if_neg done, Function.update_self, isHeight]
    · rw [Function.update_of_ne isNode]
      have kept : node ∈ (waiting.erase entry).map Prod.fst ↔ node ∈ waiting.map Prod.fst := by
        constructor
        · intro isMember
          exact (List.erase_sublist.map Prod.fst).subset isMember
        · intro isMember
          obtain ⟨other, inWaiting, isOther⟩ := List.mem_map.mp isMember
          have differs : other ≠ entry := fun isEntry => isNode (isOther ▸ isEntry ▸ rfl)
          exact List.mem_map.mpr ⟨other, (List.mem_erase_of_ne differs).mpr inWaiting, isOther⟩
      simp only [kept]
  · intro node isKnown
    rw [same.count] at isKnown
    exact (same.anchor node).trans (refines.anchors node isKnown)
  · exact refines.once.sublist (List.erase_sublist.map _)
  · intro other isMember
    rw [same.count]
    exact refines.waits other (List.mem_of_mem_erase isMember)

theorem Background.refines {base inserted : SkipList} {waiting : List (NodeId × Nat)}
    (built : Built fakeHead base) (run : Background base slist waiting inserted) :
    ∃ levels insertedLevels heights, Refines slist waiting inserted levels insertedLevels heights := by
  induction run with
  | start =>
      obtain ⟨levels, heights, tower⟩ := built.tower
      exact ⟨levels, levels, heights, tower, tower, rfl, fun _ _ => rfl, List.nodup_nil,
        fun _ isMember => by cases isMember⟩
  | asyncUpdate _ anchor remote type level absent isPredecessor ih =>
      obtain ⟨levels, insertedLevels, heights, refines⟩ := ih
      rw [refines.tower.ordered.levelChain_eq] at absent
      obtain ⟨next, insertedNext, after⟩ := refines.asyncUpdate anchor remote type level absent
      rw [isPredecessor]
      exact ⟨next, insertedNext, _, after⟩
  | calibrate _ waits ih =>
      obtain ⟨levels, insertedLevels, heights, refines⟩ := ih
      obtain ⟨next, after⟩ := refines.calibrate waits
      exact ⟨next, insertedLevels, heights, after⟩

/-- At every point each level is a sorted sublist of the one below, and once the queue is
empty the list is the one that insertion gives. -/
structure RefinesInsertion (slist : SkipList) (waiting : List (NodeId × Nat)) (inserted : SkipList) :
    Prop where
  nested : ∀ level, (slist.levelChain (level + 1)).Sublist (slist.levelChain level)
  sorted : ∀ level, SortedBy slist.anchorOf (slist.levelChain level)
  complete : waiting = [] → slist.currentLevel = inserted.currentLevel ∧
    (∀ level, slist.levelChain level = inserted.levelChain level) ∧
    slist.count = inserted.count ∧ ∀ node < slist.count, slist.anchorOf node = inserted.anchorOf node

/-- Asynchronous linking refines synchronous insertion, whatever the schedule. -/
theorem background_refines_insertion {base inserted : SkipList} {waiting : List (NodeId × Nat)}
    (built : Built fakeHead base) (run : Background base slist waiting inserted) :
    RefinesInsertion slist waiting inserted := by
  obtain ⟨levels, insertedLevels, heights, refines⟩ := run.refines built
  constructor
  · intro level
    rw [refines.tower.ordered.levelChain_eq, refines.tower.ordered.levelChain_eq]
    exact (refines.tower.strict_level (level + 1)).sublist_of_subset (refines.tower.strict_level level)
      (refines.tower.ordered.nested level)
  · intro level
    rw [refines.tower.ordered.levelChain_eq]
    exact refines.tower.ordered.sorted level
  · intro empty
    have same : ∀ node, node ≠ head → node < slist.count →
        loweredHeights waiting heights node = heights node := by
      intro node _ _
      rw [loweredHeights, empty]
      rfl
    obtain ⟨current, sameLevels⟩ := refines.tower.unique refines.target refines.count refines.anchors same
    refine ⟨current, fun level => ?_, refines.count, refines.anchors⟩
    rw [refines.tower.ordered.levelChain_eq, refines.target.ordered.levelChain_eq, sameLevels]

/-- A third node, linked while the second waits. -/
def threeLinked : SkipList := (twoLinked.linkBehind (twoLinked.predecessorOf [3]) [3] .type10 3072).2

/-- The three nodes, inserted at once. -/
def threeInserted : SkipList := (oneLinked.insert [5] 2048 .type10 3).insert [3] 3072 .type10 2

theorem threeLinked_background : Background oneLinked threeLinked [(2, 3), (3, 2)] threeInserted := by
  have first : Background oneLinked twoLinked [(2, 3)] (oneLinked.insert [5] 2048 .type10 3) :=
    Background.start.asyncUpdate [5] 2048 .type10 ⟨3, by decide⟩ (by decide) rfl
  exact first.asyncUpdate [3] 3072 .type10 ⟨2, by decide⟩ (by decide) rfl

/-- The third node is calibrated first. -/
theorem two_nodes_in_background :
    RefinesInsertion ((threeLinked.calibrate 3 2).calibrate 2 3) [] threeInserted := by
  have built : Built 64 oneLinked := Built.empty.insert [1] 1024 .type10 ⟨1, by decide⟩ (by decide)
  have lastWaits : ((3, 2) : NodeId × Nat) ∈ [(2, 3), (3, 2)] := by decide
  have third := threeLinked_background.calibrate lastWaits
  have firstWaits : ((2, 3) : NodeId × Nat) ∈ [(2, 3), (3, 2)].erase (3, 2) := by decide
  have second := third.calibrate firstWaits
  exact background_refines_insertion built second

end SkipList

end DiStore.SearchLayer
