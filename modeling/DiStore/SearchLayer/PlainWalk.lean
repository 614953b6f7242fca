import DiStore.SearchLayer.Ordered

/-!
Contract: the search against a plain walk of the bottom level.

Owns: the chain of a level as the list of its nodes, the plain search over the bottom
chain, every state of the list that a reader can meet (between calls, and between the
pointer writes of `async_update` and `calibrate`), and the agreement of
`fuzzy_search` with the plain search in all of them.

A node that `async_update` linked waits in a queue until it is calibrated; the queue
may be emptied in any order.
-/

set_option autoImplicit false

namespace DiStore.SearchLayer

open DiStore.DataLayer DiStore.Library

namespace SkipList

section Definitions

variable (slist : SkipList)

/-- The nodes reached from `head->forwards[level]`. -/
def levelChain (level : Nat) : List NodeId := follow (slist.forward level) slist.count head

/-- The last node of the bottom level with a smaller anchor, or `head`. -/
def predecessorOf (anchor : Str) : NodeId :=
  ((slist.levelChain 0).filter fun node => slist.anchorOf node < anchor).getLastD head

/-- The first node of the bottom level with the anchor `member`, or else the last with a
smaller anchor. -/
def plainSearch (member : Str) : NodeId :=
  ((slist.levelChain 0).find? fun node => slist.anchorOf node = member).getD
    (slist.predecessorOf member)

/-- The states between the stores of `async_update`. -/
def asyncTrace (dataNode : NodeId) (anchor : Str) (type : LinkedNodeType) (remote : RemotePointer) :
    List SkipList :=
  let (node, made) := slist.makeNewNode anchor remote type
  let pointed := made.setForward 0 node (slist.forward 0 dataNode)
  let published := pointed.setForward 0 dataNode (some node)
  [made, pointed, published, published.setBackward node (some dataNode)]

/-- The states between the stores of the linking loop. -/
def linkTrace (update : Nat → NodeId) (node : NodeId) : SkipList → List Nat → List SkipList
  | slist, [] => [slist]
  | slist, level :: places =>
      slist :: slist.setForward level node (slist.forward level (update level)) ::
        linkTrace update node (linkLevel update node slist level) places

/-- The states between the stores of `calibrate`. -/
def calibrateTrace (node : NodeId) (level : Nat) : List SkipList :=
  slist :: linkTrace (slist.predecessors (slist.nodes node).anchor 1) node
    { slist with currentLevel := max slist.currentLevel level } (List.range' 1 (level - 1))

end Definitions

/-- A list between calls, with the nodes that still wait to be calibrated and their
levels. -/
inductive Reached (fakeHead : RemotePointer) : SkipList → List (NodeId × Nat) → Prop where
  | empty : Reached fakeHead (empty fakeHead) []
  | insert {slist : SkipList} {waiting : List (NodeId × Nat)} (before : Reached fakeHead slist waiting)
      (anchor : Str) (remote : RemotePointer) (type : LinkedNodeType) (level : Level) :
      Reached fakeHead (slist.insert anchor remote type level.val) waiting
  | asyncUpdate {slist : SkipList} {waiting : List (NodeId × Nat)} (before : Reached fakeHead slist waiting)
      (anchor : Str) (remote : RemotePointer) (type : LinkedNodeType) (level : Level)
      (absent : ∀ node ∈ slist.levelChain 0, slist.anchorOf node ≠ anchor) :
      Reached fakeHead (slist.linkBehind (slist.predecessorOf anchor) anchor type remote).2
        (waiting ++ [(slist.count, level.val)])
  | calibrate {slist : SkipList} {waiting : List (NodeId × Nat)} (before : Reached fakeHead slist waiting)
      {entry : NodeId × Nat} (waits : entry ∈ waiting) :
      Reached fakeHead (slist.calibrate entry.1 entry.2) (waiting.erase entry)

/-- A list as a reader can meet it. -/
inductive Visible (fakeHead : RemotePointer) : SkipList → Prop where
  | between {slist : SkipList} {waiting : List (NodeId × Nat)} (reached : Reached fakeHead slist waiting) :
      Visible fakeHead slist
  | inAsyncUpdate {slist state : SkipList} {waiting : List (NodeId × Nat)}
      (reached : Reached fakeHead slist waiting) (anchor : Str) (remote : RemotePointer)
      (type : LinkedNodeType) (absent : ∀ node ∈ slist.levelChain 0, slist.anchorOf node ≠ anchor)
      (inside : state ∈ slist.asyncTrace (slist.predecessorOf anchor) anchor type remote) :
      Visible fakeHead state
  | inCalibrate {slist state : SkipList} {waiting : List (NodeId × Nat)}
      (reached : Reached fakeHead slist waiting) {entry : NodeId × Nat} (waits : entry ∈ waiting)
      (inside : state ∈ slist.calibrateTrace entry.1 entry.2) : Visible fakeHead state

variable {slist : SkipList} {levels : Nat → List NodeId} {node other : NodeId} {level : Nat}
variable {anchor : Str} {waiting : List (NodeId × Nat)} {fakeHead : RemotePointer}

theorem Ordered.levelChain_eq (ordered : slist.Ordered levels) (level : Nat) :
    slist.levelChain level = levels level :=
  follow_eq (ordered.linked level) (ordered.length_le level)

theorem Ordered.predecessorOf_eq (ordered : slist.Ordered levels) (anchor : Str) :
    slist.predecessorOf anchor = (slist.below (levels 0) anchor).getLastD head := by
  rw [predecessorOf, ordered.levelChain_eq, below, takeWhile_below (ordered.sorted 0)]

theorem Ordered.fuzzySearch_eq_plain (ordered : slist.Ordered levels) (member : Str) :
    slist.fuzzySearch member = some (slist.plainSearch member) := by
  rw [ordered.fuzzySearch_eq, route_eq_scan head member (ordered.sorted 0), plainSearch, predecessorOf,
    ordered.levelChain_eq]

/-- Two lists that no search tells apart. -/
structure SameSearch (left right : SkipList) : Prop where
  count : left.count = right.count
  currentLevel : left.currentLevel = right.currentLevel
  forward : ∀ level node, left.forward level node = right.forward level node
  anchor : ∀ node, left.anchorOf node = right.anchorOf node

theorem SameSearch.symm {left right : SkipList} (same : SameSearch left right) : SameSearch right left where
  count := same.count.symm
  currentLevel := same.currentLevel.symm
  forward level node := (same.forward level node).symm
  anchor node := (same.anchor node).symm

theorem SameSearch.refl (slist : SkipList) : SameSearch slist slist :=
  ⟨rfl, rfl, fun _ _ => rfl, fun _ => rfl⟩

theorem SameSearch.trans {first second third : SkipList} (left : SameSearch first second)
    (right : SameSearch second third) : SameSearch first third where
  count := left.count.trans right.count
  currentLevel := left.currentLevel.trans right.currentLevel
  forward level node := (left.forward level node).trans (right.forward level node)
  anchor node := (left.anchor node).trans (right.anchor node)

theorem SameSearch.descend {left right : SkipList} (same : SameSearch left right) (anchor : Str)
    (bottom level : Nat) (walker : NodeId) (update : Nat → NodeId) :
    left.descend anchor bottom level walker update = right.descend anchor bottom level walker update := by
  have advance : ∀ level walker, left.advance anchor level walker = right.advance anchor level walker := by
    intro level walker
    have forward : left.forward level = right.forward level := funext fun node => same.forward level node
    unfold SkipList.advance
    rw [forward, same.count]
    simp only [same.anchor]
  induction level generalizing walker update with
  | zero => rfl
  | succ level inductionHypothesis =>
      unfold SkipList.descend
      split
      next => rfl
      next =>
        simp only
        rw [advance, inductionHypothesis]

theorem SameSearch.fuzzySearch {left right : SkipList} (same : SameSearch left right) (member : Str) :
    left.fuzzySearch member = right.fuzzySearch member := by
  unfold SkipList.fuzzySearch
  rw [same.descend, same.currentLevel]
  simp only [same.forward]
  split
  next => rfl
  next next _ =>
    change (if left.anchorOf next = member then _
      else if member < left.anchorOf next ∧ ¬ member < left.anchorOf _ then _ else _) = _
    rw [same.anchor, same.anchor]

/-! ### Every state in between -/

/-- The nodes that wait are linked on the bottom level only, each once. -/
structure Waiting (levels : Nat → List NodeId) (waiting : List (NodeId × Nat)) : Prop where
  once : (waiting.map Prod.fst).Nodup
  bottom : ∀ entry ∈ waiting, entry.1 ∈ levels 0
  lower : ∀ entry ∈ waiting, entry.1 ∉ levels 1

theorem mem_insertedLevels {before after : Nat → List NodeId} {places : List Nat}
    (splits : ∀ level ∈ places, levels level = before level ++ after level) :
    other ∈ insertedLevels levels before after places node level ↔
      other ∈ levels level ∨ level ∈ places ∧ other = node := by
  by_cases here : level ∈ places
  · rw [insertedLevels, if_pos here, splits level here, List.mem_append, List.mem_append, List.mem_cons]
    tauto
  · rw [insertedLevels, if_neg here]
    tauto

/-- Linking a new node leaves the queue as it is. -/
theorem Waiting.insert (waits : Waiting levels waiting) (ordered : slist.Ordered levels)
    {before after : Nat → List NodeId} {places : List Nat}
    (splits : ∀ level ∈ places, levels level = before level ++ after level) :
    Waiting (insertedLevels levels before after places slist.count) waiting where
  once := waits.once
  bottom entry isMember := (mem_insertedLevels splits).mpr (.inl (waits.bottom entry isMember))
  lower entry isMember inUpper := by
    rcases (mem_insertedLevels splits).mp inUpper with old | ⟨_, isNew⟩
    · exact waits.lower entry isMember old
    · have known := ordered.known 0 entry.1 (List.mem_cons_of_mem _ (waits.bottom entry isMember))
      exact known.ne isNew

/-- A new node that is linked on the bottom level only joins the queue. -/
theorem Waiting.append (waits : Waiting levels waiting) (ordered : slist.Ordered levels)
    {before after : List NodeId} (split : levels 0 = before ++ after) (level : Nat) :
    Waiting (insertedLevels levels (fun _ => before) (fun _ => after) [0] slist.count)
      (waiting ++ [(slist.count, level)]) := by
  have splits : ∀ place ∈ [0], levels place = before ++ after := by
    intro place isPlace
    rw [List.mem_singleton.mp isPlace]
    exact split
  have old := waits.insert ordered splits
  have isNew : ∀ entry ∈ waiting, entry.1 ≠ slist.count := fun entry isMember =>
    (ordered.known 0 entry.1 (List.mem_cons_of_mem _ (waits.bottom entry isMember))).ne
  refine ⟨?_, ?_, ?_⟩
  · rw [List.map_append, List.nodup_append]
    refine ⟨old.once, List.nodup_singleton _, ?_⟩
    intro left isLeft right isRight same
    obtain ⟨entry, isMember, isEntry⟩ := List.mem_map.mp isLeft
    rw [List.map_singleton, List.mem_singleton] at isRight
    exact isNew entry isMember (isEntry.trans (same.trans isRight))
  · intro entry isMember
    rcases List.mem_append.mp isMember with isOld | isLast
    · exact old.bottom entry isOld
    · rw [List.mem_singleton.mp isLast]
      exact (mem_insertedLevels splits).mpr (.inr ⟨List.mem_singleton.mpr rfl, rfl⟩)
  · intro entry isMember inUpper
    rcases List.mem_append.mp isMember with isOld | isLast
    · exact old.lower entry isOld inUpper
    · rw [List.mem_singleton.mp isLast] at inUpper
      rcases (mem_insertedLevels splits).mp inUpper with isKnown | ⟨isBottom, _⟩
      · exact ordered.count_notMem 1 (List.mem_cons_of_mem _ isKnown)
      · cases List.mem_singleton.mp isBottom

/-- A node that is linked on upper levels leaves the queue. -/
theorem Waiting.erase (waits : Waiting levels waiting) {entry : NodeId × Nat} (isWaiting : entry ∈ waiting)
    {before after : Nat → List NodeId} {places : List Nat}
    (splits : ∀ level ∈ places, levels level = before level ++ after level) :
    Waiting (insertedLevels levels before after places entry.1) (waiting.erase entry) := by
  refine ⟨?_, ?_, ?_⟩
  · exact waits.once.sublist (List.erase_sublist.map _)
  · intro other isMember
    exact (mem_insertedLevels splits).mpr (.inl (waits.bottom other (List.mem_of_mem_erase isMember)))
  · intro other isMember inUpper
    have inWaiting := List.mem_of_mem_erase isMember
    rcases (mem_insertedLevels splits).mp inUpper with old | ⟨_, isNode⟩
    · exact waits.lower other inWaiting old
    · -- the queue names a node once
      have same : other = entry := List.inj_on_of_nodup_map waits.once inWaiting isWaiting isNode
      rw [same] at isMember
      exact (waits.once.of_map _).not_mem_erase isMember

/-- A node linked behind the last one with a smaller anchor. -/
theorem Ordered.linkBehind_predecessor (ordered : slist.Ordered levels) (anchor : Str)
    (remote : RemotePointer) (type : LinkedNodeType) :
    (slist.linkBehind (slist.predecessorOf anchor) anchor type remote).2.Ordered
        (insertedLevels levels (fun _ => slist.below (levels 0) anchor)
          (fun _ => slist.notBelow (levels 0) anchor) [0] slist.count) := by
  have split := (below_append_notBelow slist (levels 0) anchor).symm
  refine (ordered.linkBehind anchor remote type split (ordered.predecessorOf_eq anchor).symm ?_ ?_).2.1
  · exact fun other isMember => (anchorOf_below isMember).le
  · exact fun other isMember => ordered.le_anchorOf_notBelow isMember

theorem Reached.ordered (reached : Reached fakeHead slist waiting) :
    ∃ levels, slist.Ordered levels ∧ Waiting levels waiting := by
  induction reached with
  | empty =>
      exact ⟨_, ordered_empty fakeHead, List.nodup_nil, (fun _ isMember => by cases isMember),
        (fun _ isMember => by cases isMember)⟩
  | @insert slist waiting _ anchor remote type level ih =>
      obtain ⟨levels, ordered, waits⟩ := ih
      exact ⟨_, (ordered.insert anchor remote type level.property.1).1,
        waits.insert ordered fun place _ => (below_append_notBelow slist (levels place) anchor).symm⟩
  | @asyncUpdate slist waiting _ anchor remote type level _ ih =>
      obtain ⟨levels, ordered, waits⟩ := ih
      exact ⟨_, ordered.linkBehind_predecessor anchor remote type,
        waits.append ordered (below_append_notBelow slist (levels 0) anchor).symm level.val⟩
  | @calibrate slist waiting _ entry isWaiting ih =>
      obtain ⟨levels, ordered, waits⟩ := ih
      exact ⟨_, ordered.calibrate (waits.bottom entry isWaiting) (waits.lower entry isWaiting) entry.2,
        waits.erase isWaiting fun place _ => (below_append_notBelow slist (levels place) _).symm⟩

/-- A store to a node that is not linked on a level is not seen there. -/
theorem Ordered.setForward_unlinked (ordered : slist.Ordered levels)
    (unlinked : node ∉ head :: levels level) (target : Option NodeId) :
    (slist.setForward level node target).Ordered levels := by
  refine ordered.congr ?_ (fun other _ => (sameNodes_setForward _ _ _ _).anchor other) le_rfl rfl
  intro place member isMember
  rw [forward_setForward]
  by_cases here : place = level
  · subst here
    rw [if_pos rfl, Function.update_of_ne]
    intro isNode
    rw [isNode] at isMember
    exact unlinked isMember
  · rw [if_neg here]

theorem mem_linkTrace {update : Nat → NodeId} {state : SkipList} {places : List Nat}
    (inside : state ∈ linkTrace update node slist places) :
    ∃ done rest, places = done ++ rest ∧
      (state = done.foldl (linkLevel update node) slist ∨
        ∃ level tail, rest = level :: tail ∧
          state = (done.foldl (linkLevel update node) slist).setForward level node
            ((done.foldl (linkLevel update node) slist).forward level (update level))) := by
  induction places generalizing slist with
  | nil =>
      rw [linkTrace, List.mem_singleton] at inside
      exact ⟨[], [], rfl, .inl inside⟩
  | cons level places ih =>
      rw [linkTrace, List.mem_cons, List.mem_cons] at inside
      rcases inside with isStart | isHalf | later
      · exact ⟨[], level :: places, rfl, .inl isStart⟩
      · exact ⟨[], level :: places, rfl, .inr ⟨level, places, rfl, isHalf⟩⟩
      · obtain ⟨done, rest, split, place⟩ := ih later
        exact ⟨level :: done, rest, by rw [split, List.cons_append], place⟩

theorem Visible.ordered (visible : Visible fakeHead slist) : ∃ levels, slist.Ordered levels := by
  cases visible with
  | between reached =>
      obtain ⟨levels, ordered, _⟩ := reached.ordered
      exact ⟨levels, ordered⟩
  | @inAsyncUpdate start _ _ reached anchor remote type _ inside =>
      obtain ⟨levels, ordered, _⟩ := reached.ordered
      have made := ordered.makeNewNode anchor remote type
      have linked := ordered.linkBehind_predecessor anchor remote type
      simp only [asyncTrace, List.mem_cons, List.not_mem_nil, or_false] at inside
      rcases inside with isMade | isPointed | isPublished | isLinked
      · exact ⟨levels, isMade ▸ made⟩
      · exact ⟨levels, isPointed ▸ made.setForward_unlinked (ordered.count_notMem 0) _⟩
      · -- the last store changes a `backward` pointer only
        refine ⟨_, (linked.congr ?_ ?_ ?_ ?_ : slist.Ordered _)⟩
        · intro place member _
          rw [isPublished]
          exact (congrFun (forward_setBackward _ _ _ place) member).symm
        · intro member _
          rw [isPublished]
          change _ = (SkipList.nodes _ member).anchor
          unfold linkBehind publishBehind
          simp only [nodes_setBackward]
        · rw [isPublished]
          exact le_rfl
        · rw [isPublished]
          rfl
      · rw [isLinked]
        exact ⟨_, linked⟩
  | @inCalibrate start _ _ reached entry waits inside =>
      obtain ⟨levels, ordered, waiting⟩ := reached.ordered
      have isBottom := waiting.bottom entry waits
      have notUpper := waiting.lower entry waits
      rw [calibrateTrace, List.mem_cons] at inside
      rcases inside with isStart | linking
      · exact ⟨levels, isStart ▸ ordered⟩
      · obtain ⟨done, rest, split, place⟩ := mem_linkTrace linking
        obtain ⟨count, short, isPrefix, _⟩ := List.range'_eq_append_iff.mp split
        have partly := ordered.linkUpper isBottom notUpper entry.2 short
        rw [← isPrefix] at partly
        rcases place with isDone | ⟨level, tail, isRest, isHalf⟩
        · exact ⟨_, isDone ▸ partly⟩
        · refine ⟨_, isHalf ▸ partly.setForward_unlinked ?_ _⟩
          -- the level that is being linked is not among those done
          have nodup : (done ++ rest).Nodup := split ▸ List.nodup_range'
          have notDone : level ∉ done := by
            intro isMember
            exact (List.nodup_append.mp nodup).2.2 level isMember level (by rw [isRest]; simp) rfl
          have positive : 1 ≤ level := by
            have isPlace : level ∈ List.range' 1 (entry.2 - 1) := by
              rw [split, isRest]
              simp
            exact (List.mem_range'_1.mp isPlace).1
          rw [insertedLevels, if_neg notDone, List.mem_cons]
          rintro (isHead | inLevel)
          · rw [isHead] at isBottom
            exact (List.nodup_cons.mp (ordered.nodup 0)).1 isBottom
          · obtain ⟨above, rfl⟩ := Nat.exists_eq_add_of_le' positive
            have down : ∀ place, entry.1 ∈ levels (place + 1) → entry.1 ∈ levels 1 := by
              intro place
              induction place with
              | zero => exact id
              | succ place ih => exact fun isMember => ih (ordered.nested _ isMember)
            exact notUpper (down above inLevel)

/-- In every state a reader can meet, `fuzzy_search` finds what a plain walk of the bottom
level finds. -/
theorem fuzzy_search_is_plain_walk (visible : Visible fakeHead slist) (member : Str) :
    slist.fuzzySearch member = some (slist.plainSearch member) := by
  obtain ⟨levels, ordered⟩ := visible.ordered
  exact ordered.fuzzySearch_eq_plain member

/-- One node, and one that waits to be linked on three levels. -/
def oneLinked : SkipList := (empty 64).insert [1] 1024 .type10 1

def twoLinked : SkipList := (oneLinked.linkBehind (oneLinked.predecessorOf [5]) [5] .type10 2048).2

theorem twoLinked_reached : Reached 64 twoLinked [(2, 3)] :=
  .asyncUpdate (.insert .empty [1] 1024 .type10 ⟨1, by decide⟩) [5] 2048 .type10 ⟨3, by decide⟩
    (by decide)

/-- The second node points to its successor on level 1, but nothing points to it there. -/
def halfCalibrated : SkipList := (twoLinked.calibrateTrace 2 3).get ⟨2, by decide⟩

theorem half_calibrated_search :
    halfCalibrated.fuzzySearch [7] = some (halfCalibrated.plainSearch [7]) :=
  fuzzy_search_is_plain_walk (.inCalibrate twoLinked_reached List.mem_cons_self (List.get_mem _ _)) [7]

end SkipList

end DiStore.SearchLayer
