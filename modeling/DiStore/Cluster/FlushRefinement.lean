import DiStore.Cluster.Flush
import DiStore.Common.Digests
import DiStore.Library.SortedRoute

/-!
Contract: when flushing the local stage keeps what clients read.

Owns: the comparison of `get` on the local nodes with `fuzzy_search` and `find` on
the remote ones, and the exact condition under which a flush preserves it.

Two things break it. With equal anchors the list links the later insertion first,
so the records above the anchor are behind the search. And a key below every anchor
is looked up in whatever memory the fake head was given.
-/

set_option autoImplicit false

namespace DiStore.Cluster

open DiStore.Concurrency DiStore.DataLayer DiStore.Library DiStore.Memory DiStore.SearchLayer

variable [Digest]

namespace ComputeNode

variable {source : SegmentSource} {node after : ComputeNode} {thread : ThreadId}
variable {larger smaller : RemotePointer} {draws : FlushDraws}

/-- The put that flushed returned true, every other key reads as it did from the
local nodes, and the new key is found, with its value if it was new. -/
def FlushPreserves (stage : LocalStage) (result : Bool × ComputeNode) (key value : Bytes16) : Prop :=
  result.1 = true ∧
    (∀ other : Bytes16, other ≠ key → result.2.lookup other.val = stage.get other.val) ∧
    (result.2.lookup key.val).isSome ∧
    (stage.get key.val = none → result.2.lookup key.val = some value)

/-- The image behind the first and behind the second inserted anchor. -/
def flushedImage (flushNode : LinkedNode) (stage : LocalStage) (slot : Fin 2) (larger smaller : RemotePointer)
    (key value : Str) (place : Fin 2) : LinkedNode :=
  if place = slot then largerImage flushNode stage slot smaller key value
  else sealed (smallerNode stage slot larger)

/-- What the two images map: the node of their slot, and the new record in the picked one. -/
theorem find_flushedImage {flushNode : LinkedNode} {stage : LocalStage}
    (bounded : ∀ slot, (stage.nodes slot).next ≤ 10) (slot place : Fin 2)
    (larger smaller : RemotePointer) (key value other : Bytes16) :
    (flushedImage flushNode stage slot larger smaller key.val value.val place).find other.val =
      if place = slot ∧ other = key then ((stage.nodes place).find key.val).or (some value)
      else (stage.nodes place).find other.val := by
  by_cases picked : place = slot
  · subst picked
    rw [flushedImage, if_pos rfl, largerImage]
    split <;> rw [find_flushLarger (bounded _)] <;> by_cases same : other = key <;> simp [same]
  · have isOther : place = 1 - slot := by omega
    have noPick : ¬ (place = slot ∧ other = key) := fun both => picked both.1
    rw [flushedImage, if_neg picked, if_neg noPick, find_sealed, smallerNode, isOther]
    split <;> rfl

/-- Where a key is looked up after a flush. -/
theorem Flushed.lookup_eq (node : ComputeNode) {slot : Fin 2} {key value : Bytes16}
    (slist : node.slist = .empty node.fakeHead) (bounded : ∀ slot, (node.stage.nodes slot).next ≤ 10)
    (ordered : node.stage.anchors 0 ≤ node.stage.anchors 1)
    (flushed : Flushed source thread node slot key.val value.val draws larger smaller after)
    (other : Bytes16) :
    after.lookup other.val =
      if other.val < node.stage.anchors 0 then (node.remote node.fakeHead).find other.val
      else if node.stage.anchors 0 = node.stage.anchors 1 then
        (flushedImage node.flushNode node.stage slot larger smaller key.val value.val
          (if other.val = node.stage.anchors 0 then 1 else 0)).find other.val
      else
        (flushedImage node.flushNode node.stage slot larger smaller key.val value.val
          (if other.val < node.stage.anchors 1 then 0 else 1)).find other.val := by
  -- the insertions, with the chunk and type of either place
  obtain ⟨remotes, types, isRemotes, isList⟩ : ∃ (remotes : Fin 2 → RemotePointer)
      (types : Fin 2 → LinkedNodeType),
      (∀ place, remotes place = if place = slot then larger else smaller) ∧
      after.slist = ((SkipList.empty node.fakeHead).insert (node.stage.anchors 0) (remotes 0) (types 0)
        draws.firstLevel.val).insert (node.stage.anchors 1) (remotes 1) (types 1) draws.secondLevel.val := by
    refine ⟨fun place => if place = slot then larger else smaller,
      fun place => if place = slot then .type12 else .type10, fun _ => rfl, ?_⟩
    rw [flushed.slist, slist]
    rcases Fin.exists_fin_two.mp ⟨slot, rfl⟩ with rfl | rfl <;> rfl
  obtain ⟨levels, orderedList, chain, nodes⟩ :=
    SkipList.insert_two_spec node.fakeHead ordered (remotes 0) (remotes 1) (types 0) (types 1)
      draws.firstLevel.property.1 draws.secondLevel.property.1
  rw [← isList] at orderedList nodes
  have image : ∀ place, after.remote (remotes place) = LinkedNode.overlay
      (if place = slot then sizeofNode .type12 else sizeofNode .type10)
      (flushedImage node.flushNode node.stage slot larger smaller key.val value.val place)
      (node.remote (remotes place)) := by
    intro place
    rw [isRemotes, flushedImage]
    split
    next => exact flushed.largerRemote
    next => exact flushed.smallerRemote
  have imageNext : ∀ place,
      (flushedImage node.flushNode node.stage slot larger smaller key.val value.val place).next ≤
        if place = slot then 12 else 10 := by
    intro place
    rw [flushedImage]
    by_cases picked : place = slot
    · simp only [if_pos picked, largerImage]
      split <;> exact flushLarger_next_le (bounded _) _ _
    · simp only [if_neg picked, smallerNode]
      split <;> exact bounded _
  have read : ∀ place, (after.remote (remotes place)).find other.val =
      (flushedImage node.flushNode node.stage slot larger smaller key.val value.val place).find other.val := by
    intro place
    rw [image]
    refine LinkedNode.find_overlay ?_ other
    have bound := imageNext place
    unfold pairsOffset
    split
    next picked =>
      rw [if_pos picked] at bound
      have : sizeofNode .type12 = 432 := rfl
      omega
    next picked =>
      rw [if_neg picked] at bound
      have : sizeofNode .type10 = 368 := rfl
      omega
  have headImage : after.remote node.fakeHead = node.remote node.fakeHead :=
    flushed.otherRemote _ flushed.largerNotHead.symm flushed.smallerNotHead.symm
  unfold lookup
  rw [orderedList.fuzzySearch_eq, chain, Option.bind_some]
  by_cases twins : node.stage.anchors 0 = node.stage.anchors 1
  · have keys : after.slist.anchorOf 2 = after.slist.anchorOf 1 := by
      rw [SkipList.anchorOf, SkipList.anchorOf, nodes.anchor.1, nodes.anchor.2, twins]
    rw [if_pos twins, route_twins keys, SkipList.anchorOf, nodes.anchor.2, ← twins]
    split
    next => rw [nodes.headNode, headImage]
    next =>
      rw [if_pos rfl]
      split
      next => rw [nodes.dataNode.2, read]
      next => rw [nodes.dataNode.1, read]
  · have keys : after.slist.anchorOf 1 < after.slist.anchorOf 2 := by
      rw [SkipList.anchorOf, SkipList.anchorOf, nodes.anchor.1, nodes.anchor.2]
      exact lt_of_le_of_ne ordered twins
    rw [if_neg twins, route_pair keys, SkipList.anchorOf, SkipList.anchorOf, nodes.anchor.1,
      nodes.anchor.2]
    split
    next => rw [nodes.headNode, headImage]
    next =>
      split
      next => rw [nodes.dataNode.1, read]
      next => rw [nodes.dataNode.2, read]

/-- The result of the put that flushes, key by key. -/
theorem Unflushed.lookup_flush (unflushed : Unflushed source node) (thread : ThreadId) {key value : Bytes16}
    (full : node.stage.quickPut key.val value.val = none)
    (largerDone : draws.largerWrite = .done) (smallerDone : draws.smallerWrite = .done) :
    (node.quickPut source thread key.val value.val draws).1 = true ∧
      ∃ slot : Fin 2,
        (slot = 0 ∧ ¬ node.stage.anchors 1 < key.val ∧ node.stage.anchors 0 ≠ node.stage.anchors 1 ∨
          slot = 1 ∧ node.stage.anchors 1 < key.val ∧ ¬ key.val < node.stage.anchors 0) ∧
        ∀ other : Bytes16,
          (node.quickPut source thread key.val value.val draws).2.lookup other.val =
            if other.val < min key.val (node.stage.anchors 0) then
              (node.remote node.fakeHead).find other.val
            else
              let place : Fin 2 :=
                if node.stage.anchors 0 = node.stage.anchors 1 then
                  if other.val = node.stage.anchors 0 then 1 else 0
                else if other.val < node.stage.anchors 1 then 0 else 1
              if place = slot ∧ other = key then ((node.stage.nodes place).find key.val).or (some value)
              else (node.stage.nodes place).find other.val := by
  have refused := LocalStage.quickPut_eq_none_iff.mp full
  obtain ⟨hasSecond, nodes, second, first, cases⟩ :=
    unflushed.shape.full_pick (LocalStage.pick_spec node.stage key.val) refused
  rw [quickPut_flushes unflushed full]
  obtain ⟨larger, smaller, after, flushedEq, flushed⟩ := flush_spec
    { node with stage := (node.stage.quickPutPickNode key.val).1 } thread unflushed.sound
    unflushed.headTaken (node.stage.quickPutPickNode key.val).2 key.val value.val largerDone smallerDone
  rw [flushedEq]
  have pickedBounded : ∀ slot, (((node.stage.quickPutPickNode key.val).1).nodes slot).next ≤ 10 := by
    rw [nodes]
    exact unflushed.shape.bounded
  have secondAbove := not_lt.mp (unflushed.shape.ordered hasSecond)
  have pickedOrdered : ((node.stage.quickPutPickNode key.val).1).anchors 0 ≤
      ((node.stage.quickPutPickNode key.val).1).anchors 1 := by
    rw [first, second]
    exact (min_le_right _ _).trans secondAbove
  refine ⟨rfl, (node.stage.quickPutPickNode key.val).2, cases, fun other => ?_⟩
  have lookup := Flushed.lookup_eq
    { node with stage := (node.stage.quickPutPickNode key.val).1 } unflushed.slist
    pickedBounded pickedOrdered flushed other
  simp only [find_flushedImage pickedBounded, nodes, first, second] at lookup
  rw [lookup]
  -- the picked first anchor is the old one unless the key lies below both anchors
  rcases cases with ⟨isFirst, notBeyond, differ⟩ | ⟨isSecond, beyond, notBelow⟩
  · have differMin : ¬ min key.val (node.stage.anchors 0) = node.stage.anchors 1 := by
      intro same
      have : node.stage.anchors 1 ≤ node.stage.anchors 0 := same ▸ min_le_right _ _
      exact differ (le_antisymm secondAbove this)
    simp only [if_neg differ, if_neg differMin]
    split
    next => rfl
    next => split <;> rfl
  · rw [min_eq_right (not_lt.mp notBelow)]
    split
    next => rfl
    next =>
      split <;> rfl

/-- A `quick_put` that stays local changes the stage only. -/
theorem quickPut_stays (staysLocal : node.remotePut = false) {stage : LocalStage} {key value : Str}
    (stayed : node.stage.quickPut key value = some stage) :
    node.quickPut source thread key value draws = (true, { node with stage := stage }) := by
  unfold quickPut
  rw [staysLocal]
  unfold LocalStage.quickPut at stayed
  simp only at stayed
  simp only [Bool.false_eq_true, if_false]
  split at stayed
  next stored =>
    rw [if_pos stored, Option.some.inj stayed, ← staysLocal]
  next => cases stayed

/-- The node after `initialize` and puts that all stayed local. -/
def afterPuts (source : SegmentSource) (thread : ThreadId) (memory : RemotePointer → LinkedNode)
    (buffers : ThreadId → Nat → LinkedNode) (heap : Fin 2 → LinkedNode)
    (puts : List (Bytes16 × Bytes16)) : Option ComputeNode :=
  ((LocalStage.initial heap).calls (puts.map fun record => .put record.1 record.2)).map fun reached =>
    { initialized source thread memory buffers heap with stage := reached.1 }

theorem afterPuts_unflushed {memory : RemotePointer → LinkedNode}
    {buffers : ThreadId → Nat → LinkedNode} {heap : Fin 2 → LinkedNode}
    {puts : List (Bytes16 × Bytes16)}
    (reached : afterPuts source thread memory buffers heap puts = some node) :
    Unflushed source node ∧ node.remote = memory := by
  obtain ⟨⟨stage, answers⟩, ran, rfl⟩ := Option.map_eq_some_iff.mp reached
  exact ⟨initialized_unflushed source thread memory buffers heap
    (LocalStage.shape_calls (LocalStage.shape_initial heap) ran), rfl⟩

/-- A flush preserves the store exactly when the two anchors differ and the memory
of the fake head holds no record below them. -/
theorem flush_preserves_iff {main : ThreadId} {memory : RemotePointer → LinkedNode}
    {buffers : ThreadId → Nat → LinkedNode} {heap : Fin 2 → LinkedNode}
    {puts : List (Bytes16 × Bytes16)}
    (reached : afterPuts source main memory buffers heap puts = some node) (key value : Bytes16)
    (full : node.stage.quickPut key.val value.val = none)
    (largerDone : draws.largerWrite = .done) (smallerDone : draws.smallerWrite = .done) :
    FlushPreserves node.stage (node.quickPut source thread key.val value.val draws) key value ↔
      node.stage.anchors 0 ≠ node.stage.anchors 1 ∧
        ∀ other : Bytes16, other.val < min key.val (node.stage.anchors 0) →
          (memory node.fakeHead).find other.val = none := by
  obtain ⟨unflushed, rfl⟩ := afterPuts_unflushed reached
  obtain ⟨returned, slot, cases, lookup⟩ :=
    unflushed.lookup_flush thread full largerDone smallerDone
  obtain ⟨hasSecond, _⟩ := unflushed.shape.full_pick (LocalStage.pick_spec node.stage key.val)
    (LocalStage.quickPut_eq_none_iff.mp full)
  have shape := unflushed.shape
  have secondAbove := not_lt.mp (shape.ordered hasSecond)
  have find_none : ∀ place (other : Bytes16), ¬ (node.stage.nodes place).Holds other →
      (node.stage.nodes place).find other.val = none := fun place other =>
    (LinkedNode.find_eq_none_iff (shape.marked place)).mpr
  have notBelow : ∀ place (other : Bytes16), other.val < node.stage.anchors 0 →
      (node.stage.nodes place).find other.val = none := fun place other below =>
    find_none place other fun inNode => shape.above place other inNode below
  have get : ∀ other : Bytes16, node.stage.get other.val =
      (node.stage.nodes (if other.val < node.stage.anchors 1 then 0 else 1)).find other.val := by
    intro other
    unfold LocalStage.get
    by_cases below : other.val < node.stage.anchors 1 <;> simp [hasSecond, below]
  constructor
  · rintro ⟨_, others, keyFound, _⟩
    refine ⟨fun twins => ?_, fun other below => ?_⟩
    · -- with equal anchors the new record is in the node that the search passes
      rcases cases with ⟨_, _, differ⟩ | ⟨isSecond, beyond, notBelowKey⟩
      · exact differ twins
      · have notMin : ¬ key.val < min key.val (node.stage.anchors 0) := by
          rw [min_eq_right (not_lt.mp notBelowKey)]
          exact notBelowKey
        have notAnchor : key.val ≠ node.stage.anchors 0 := by
          rw [twins]
          exact beyond.ne'
        have missing : (node.stage.nodes 0).find key.val = none :=
          find_none 0 key fun inNode => notAnchor (shape.twin twins key inNode).symm
        rw [lookup, if_neg notMin] at keyFound
        simp [twins, twins ▸ notAnchor, isSecond, missing] at keyFound
    · have differs : other ≠ key := by
        rintro rfl
        exact absurd (below.trans_le (min_le_left _ _)) (lt_irrefl _)
      have same := others other differs
      rw [lookup, if_pos below, get, notBelow _ _ (below.trans_le (min_le_right _ _))] at same
      exact same
  · rintro ⟨differ, clean⟩
    have place : ∀ other : Bytes16, ¬ other.val < min key.val (node.stage.anchors 0) →
        (node.quickPut source thread key.val value.val draws).2.lookup other.val =
          if (if other.val < node.stage.anchors 1 then (0 : Fin 2) else 1) = slot ∧ other = key then
            ((node.stage.nodes slot).find key.val).or (some value)
          else node.stage.get other.val := by
      intro other notMin
      rw [lookup, if_neg notMin, get]
      simp only [if_neg differ]
      generalize (if other.val < node.stage.anchors 1 then (0 : Fin 2) else 1) = place
      by_cases both : place = slot ∧ other = key
      · rw [if_pos both, if_pos both, both.1]
      · rw [if_neg both, if_neg both]
    have keyNotMin : ¬ key.val < min key.val (node.stage.anchors 0) := not_lt.mpr (min_le_left _ _)
    -- only the second anchor itself is picked into one node and read from the other
    have picked : (if key.val < node.stage.anchors 1 then (0 : Fin 2) else 1) = slot ∨
        (node.stage.get key.val).isSome := by
      rcases cases with ⟨isFirst, notBeyond, _⟩ | ⟨isSecond, beyond, _⟩
      · rcases eq_or_lt_of_le (not_lt.mp notBeyond) with isAnchor | below
        · refine .inr ?_
          rw [get, if_neg (by rw [isAnchor]; exact lt_irrefl _)]
          exact (LinkedNode.find_isSome_iff (shape.marked 1)).mpr (shape.held 1 key isAnchor.symm)
        · exact .inl (by rw [if_pos below, isFirst])
      · exact .inl (by rw [if_neg (not_lt.mpr beyond.le), isSecond])
    refine ⟨returned, fun other differs => ?_, ?_, fun absent => ?_⟩
    · by_cases below : other.val < min key.val (node.stage.anchors 0)
      · rw [lookup, if_pos below, clean other below, get,
          notBelow _ _ (below.trans_le (min_le_right _ _))]
      · rw [place other below, if_neg (fun both => differs both.2)]
    · rw [place key keyNotMin]
      by_cases same : (if key.val < node.stage.anchors 1 then (0 : Fin 2) else 1) = slot
      · rw [if_pos ⟨same, rfl⟩]
        cases (node.stage.nodes slot).find key.val <;> rfl
      · rw [if_neg fun both => same both.1]
        exact picked.resolve_left same
    · rcases picked with same | found
      · rw [place key keyNotMin, if_pos ⟨same, rfl⟩]
        rw [get, same] at absent
        rw [absent, Option.none_or]
      · rw [absent] at found
        cases found

end ComputeNode

end DiStore.Cluster

/-! ### Flushes on concrete keys -/

namespace DiStore.Cluster.ComputeNode

open DiStore.DataLayer DiStore.Memory

attribute [local instance] Digests.source

/-- Remote memory, buffers and heap that read as zero bytes, and one memory node. -/
def zeroStart (puts : List (Bytes16 × Bytes16)) : Option ComputeNode :=
  afterPuts (.memoryNode 0) 0 (fun _ => .zeroed) (fun _ _ => .zeroed) (fun _ => .zeroed) puts

/-- Keys of equal bytes, from `first` on. -/
def byteRecords (first count : Nat) : List (Bytes16 × Bytes16) :=
  (List.range count).map fun index => (.fill (UInt8.ofNat (first + index)), .fill 1)

def levelOne : SearchLayer.Level := ⟨1, SearchLayer.level_one⟩

def drawsDone : FlushDraws := ⟨levelOne, levelOne, .done, .done⟩

/-- Eleven different keys fill the second node; the twelfth flushes. -/
theorem flush_preserves_distinct :
    ∃ node, zeroStart (byteRecords 97 11) = some node ∧
      FlushPreserves node.stage (node.quickPut (.memoryNode 0) 0 (Bytes16.fill 120).val
        (Bytes16.fill 2).val drawsDone) (.fill 120) (.fill 2) := by
  have facts : (zeroStart (byteRecords 97 11)).map (fun node =>
      ((node.stage.quickPut (Bytes16.fill 120).val (Bytes16.fill 2).val).isNone,
        node.stage.anchors 0, node.stage.anchors 1)) =
      some (true, (Bytes16.fill 97).val, (Bytes16.fill 98).val) := by decide +kernel
  obtain ⟨node, reached, isNode⟩ := Option.map_eq_some_iff.mp facts
  simp only [Prod.mk.injEq, Option.isNone_iff_eq_none] at isNode
  obtain ⟨full, first, second⟩ := isNode
  refine ⟨node, reached, (flush_preserves_iff reached _ _ full rfl rfl).mpr ⟨?_, fun other _ => ?_⟩⟩
  · rw [first, second]
    decide
  · exact LinkedNode.find_of_next_zero rfl _

/-- The first key put twice makes both anchors that key. -/
def twinRecords : List (Bytes16 × Bytes16) := (.fill 97, .fill 1) :: byteRecords 97 10

/-- After a flush with equal anchors the flushing key is behind the search. -/
theorem flush_with_twin_anchors_loses :
    ¬ ∀ node, zeroStart twinRecords = some node →
      node.stage.quickPut (Bytes16.fill 120).val (Bytes16.fill 2).val = none →
      FlushPreserves node.stage (node.quickPut (.memoryNode 0) 0 (Bytes16.fill 120).val
        (Bytes16.fill 2).val drawsDone) (.fill 120) (.fill 2) := by
  intro preserves
  have facts : (zeroStart twinRecords).map (fun node =>
      ((node.stage.quickPut (Bytes16.fill 120).val (Bytes16.fill 2).val).isNone,
        (node.quickPut (.memoryNode 0) 0 (Bytes16.fill 120).val (Bytes16.fill 2).val drawsDone).2.lookup
          (Bytes16.fill 120).val)) = some (true, none) := by decide +kernel
  obtain ⟨node, reached, isNode⟩ := Option.map_eq_some_iff.mp facts
  simp only [Prod.mk.injEq, Option.isNone_iff_eq_none] at isNode
  obtain ⟨_, _, found, _⟩ := preserves node reached isNode.1
  rw [isNode.2] at found
  cases found

end DiStore.Cluster.ComputeNode
