import DiStore.Cluster.FlushRefinement
import DiStore.Cluster.PutRefinement

/-!
Contract: the states that the puts of one client reach.

Owns: the run of puts whose writes all succeed (`PutRun`), with the background `calibrate`, and
what such a run keeps after the flush (`ComputeNode.Settled`): data nodes have chunks that are
taken, data types, and another node to point back to.

Does not own: what the images hold. The type that `morph_node` chooses can be too small for the
records, so nothing is said about them here.
-/

set_option autoImplicit false

namespace DiStore.Cluster.ComputeNode

open DiStore.Concurrency DiStore.DataLayer DiStore.Memory DiStore.SearchLayer

/-- Every write that a put can post is done. -/
structure AllWritesDone (flush : FlushDraws) (draws : PutDraws) : Prop where
  larger : flush.largerWrite = .done
  smaller : flush.smallerWrite = .done
  write : draws.write = .done
  batch : draws.batch = .done

variable {source : SegmentSource} {node start before after : ComputeNode} {thread : ThreadId}
variable {target id : NodeId} {remote : RemotePointer} {type : LinkedNodeType}

/-! ### The invariant -/

/-- A data node whose chunk is its own, and which points back to another node. -/
structure Placed (source : SegmentSource) (node : ComputeNode) (id : NodeId) : Prop where
  isData : (node.slist.nodes id).type.IsData
  taken : ¬ RemoteHeap.Reserve source node.heap (node.slist.nodes id).dataNode
  behind : node.backwardOf id < node.slist.count
  apart : node.backwardOf id ≠ id

/-- What puts keep after the flush. -/
structure Settled (source : SegmentSource) (node : ComputeNode) : Prop where
  remotePut : node.remotePut = true
  sound : RemoteHeap.Sound source node.heap
  headType : (node.slist.nodes SkipList.head).type = .typeHead
  headTaken : ¬ RemoteHeap.Reserve source node.heap (node.slist.nodes SkipList.head).dataNode
  placed : ∀ id < node.slist.count, id ≠ SkipList.head → Placed source node id

/-- A step that gives out chunks, creates nodes and leaves a node alone. -/
theorem Placed.kept (placed : Placed source before id)
    (dataNode : (after.slist.nodes id).dataNode = (before.slist.nodes id).dataNode)
    (type : (after.slist.nodes id).type = (before.slist.nodes id).type)
    (backward : (after.slist.nodes id).backward = (before.slist.nodes id).backward)
    (shrinks : ∀ address, RemoteHeap.Reserve source after.heap address →
      RemoteHeap.Reserve source before.heap address)
    (grows : before.slist.count ≤ after.slist.count) : Placed source after id := by
  have sameBackward : after.backwardOf id = before.backwardOf id := by
    unfold backwardOf
    rw [backward]
  constructor
  · rw [type]
    exact placed.isData
  · rw [dataNode]
    exact fun reserved => placed.taken (shrinks _ reserved)
  · rw [sameBackward]
    exact placed.behind.trans_le grows
  · rw [sameBackward]
    exact placed.apart

namespace Settled

variable (settled : Settled source before)

include settled

theorem predTaken (known : target < before.slist.count) (notHead : target ≠ SkipList.head) :
    ¬ RemoteHeap.Reserve source before.heap (before.predData target) := by
  have behind := (settled.placed target known notHead).behind
  unfold predData
  by_cases isHead : before.backwardOf target = SkipList.head
  · rw [isHead]
    exact settled.headTaken
  · exact (settled.placed _ behind isHead).taken

/-- One node gets a chunk and a type; nothing else changes but locks and images. -/
theorem moved (moved : Moved before.slist after.slist target remote type) (isData : type.IsData)
    (notHead : target ≠ SkipList.head) (sound : RemoteHeap.Sound source after.heap)
    (shrinks : ∀ address, RemoteHeap.Reserve source after.heap address →
      RemoteHeap.Reserve source before.heap address)
    (taken : ¬ RemoteHeap.Reserve source after.heap remote)
    (remotePut : after.remotePut = before.remotePut) : Settled source after := by
  constructor
  case remotePut => exact remotePut.trans settled.remotePut
  case sound => exact sound
  case headType =>
    rw [moved.type, if_neg notHead.symm]
    exact settled.headType
  case headTaken =>
    rw [moved.dataNode, if_neg notHead.symm]
    exact fun reserved => settled.headTaken (shrinks _ reserved)
  case placed =>
    intro id known isOther
    rw [moved.count] at known
    have placed := settled.placed id known isOther
    by_cases isTarget : id = target
    · have sameBackward : after.backwardOf id = before.backwardOf id := by
        unfold backwardOf
        rw [moved.backward]
      constructor
      · rw [moved.type, if_pos isTarget]
        exact isData
      · rw [moved.dataNode, if_pos isTarget]
        exact taken
      · rw [sameBackward, moved.count]
        exact placed.behind
      · rw [sameBackward]
        exact placed.apart
    · apply placed.kept _ _ (moved.backward id) shrinks moved.count.ge
      · rw [moved.dataNode, if_neg isTarget]
      · rw [moved.type, if_neg isTarget]

/-- A split gives its node a chunk, and puts a new node behind it. -/
theorem divided {l r : RemotePointer} {anchor : Str} {leftType rightType : LinkedNodeType}
    (nodes : SplitNodes before.slist after.slist target anchor l r leftType rightType)
    (leftData : leftType.IsData) (rightData : rightType.IsData) (known : target < before.slist.count)
    (notHead : target ≠ SkipList.head) (sound : RemoteHeap.Sound source after.heap)
    (shrinks : ∀ address, RemoteHeap.Reserve source after.heap address →
      RemoteHeap.Reserve source before.heap address)
    (leftTaken : ¬ RemoteHeap.Reserve source after.heap l)
    (rightTaken : ¬ RemoteHeap.Reserve source after.heap r)
    (remotePut : after.remotePut = before.remotePut) : Settled source after := by
  have grows : before.slist.count ≤ after.slist.count := nodes.count ▸ Nat.le_succ _
  have headOld : SkipList.head ≠ before.slist.count := ((Nat.zero_le target).trans_lt known).ne
  obtain ⟨headData, headTyped⟩ := (nodes.others SkipList.head headOld).2.2 notHead.symm
  constructor
  case remotePut => exact remotePut.trans settled.remotePut
  case sound => exact sound
  case headType => exact headTyped.trans settled.headType
  case headTaken =>
    rw [headData]
    exact fun reserved => settled.headTaken (shrinks _ reserved)
  case placed =>
    intro id knownAfter isOther
    rw [nodes.count] at knownAfter
    by_cases isNew : id = before.slist.count
    · obtain ⟨dataNode, isType, _, backward⟩ := nodes.right
      have pointsBack : after.backwardOf id = target := by
        unfold backwardOf
        rw [isNew, backward]
        rfl
      constructor
      · rw [isNew, isType]
        exact rightData
      · rw [isNew, dataNode]
        exact rightTaken
      · rw [pointsBack]
        exact known.trans_le grows
      · rw [pointsBack, isNew]
        exact known.ne
    · have isOld : id < before.slist.count := lt_of_le_of_ne (Nat.lt_succ_iff.mp knownAfter) isNew
      have placed := settled.placed id isOld isOther
      obtain ⟨_, backward, others⟩ := nodes.others id isNew
      by_cases isTarget : id = target
      · have sameBackward : after.backwardOf id = before.backwardOf id := by
          unfold backwardOf
          rw [backward]
        constructor
        · rw [isTarget, nodes.left.2]
          exact leftData
        · rw [isTarget, nodes.left.1]
          exact leftTaken
        · rw [sameBackward]
          exact placed.behind.trans_le grows
        · rw [sameBackward]
          exact placed.apart
      · obtain ⟨dataNode, isType⟩ := others isTarget
        exact placed.kept dataNode isType backward shrinks grows

/-- The background thread links levels only. -/
theorem calibrateNext : Settled source before.calibrateNext := by
  unfold ComputeNode.calibrateNext
  split
  next => exact settled
  next entry rest _ =>
    have same := SkipList.sameNodes_calibrate before.slist entry.newNode entry.level
    constructor
    case remotePut => exact settled.remotePut
    case sound => exact settled.sound
    case headType => exact (same.type SkipList.head).trans settled.headType
    case headTaken =>
      change ¬ RemoteHeap.Reserve source before.heap _
      rw [same.dataNode]
      exact settled.headTaken
    case placed =>
      intro id known isOther
      change id < (before.slist.calibrate entry.newNode entry.level).count at known
      rw [same.count] at known
      exact (settled.placed id known isOther).kept (same.dataNode id) (same.type id) (same.backward id)
        (fun _ reserved => reserved) same.count.ge

/-- Taking the locks. -/
theorem won {won : ComputeNode} (known : target < before.slist.count) (notHead : target ≠ SkipList.head)
    (wonInsert : WonInsert before won thread target) : Settled source won := by
  have placed := settled.placed target known notHead
  apply settled.moved wonInsert.moved placed.isData notHead
  · rw [wonInsert.heap]
    exact settled.sound
  · rw [wonInsert.heap]
    exact fun _ reserved => reserved
  · rw [wonInsert.heap]
    exact placed.taken
  · exact wonInsert.remotePut

end Settled

/-! ### One put -/

section Put

variable [Digest] {key value : Str} {draws : PutDraws}

/-- A node with room is written in place. -/
theorem Settled.inPlace (settled : Settled source start) (known : target < start.slist.count)
    (notHead : target ≠ SkipList.head) (isType : (start.slist.nodes target).type = type)
    (queue : (start.contexts thread).requests = []) (isDone : draws.write = .done) (plan : Nat → PutPlan)
    (room : (start.fetchedReal thread target).next < type.capacity) :
    ∃ after, start.putWon source thread target key value draws type plan = ⟨true, [], after⟩ ∧
      Settled source after ∧
      Moved start.slist after.slist target (start.slist.nodes target).dataNode type ∧
      after.remote = Function.update start.remote (start.slist.nodes target).dataNode
        (LinkedNode.overlay (sizeofNode type)
          ((start.fetchedReal thread target).store type.capacity key value).2 (start.imageOf target)) := by
  obtain ⟨after, returned, moved, heap, remotePut, remote⟩ :=
    @putWon_written source start thread target _ draws type key value queue isDone plan room
  rw [isType] at moved
  have placed := settled.placed target known notHead
  refine ⟨after, returned, ?_, moved, remote⟩
  apply settled.moved moved (isType ▸ placed.isData) notHead
  · rw [heap]
    exact settled.sound
  · rw [heap]
    exact fun _ reserved => reserved
  · rw [heap]
    exact placed.taken
  · exact remotePut

omit [Digest] in
/-- A node written to a new chunk. -/
theorem Settled.rewritten (settled : Settled source start) (notHead : target ≠ SkipList.head)
    {pred real : LinkedNode} {requests : List ConcurrencyRequest} {moved : ComputeNode}
    (rewritten : Rewritten source (start.fetchTwo thread target) thread target pred real requests remote
      moved)
    (isData : real.type.IsData) :
    Settled source (moved.release thread target) ∧
      RemoteHeap.Reserve source start.heap ((moved.release thread target).slist.nodes target).dataNode := by
  have move : Moved start.slist (moved.release thread target).slist target remote real.type :=
    rewritten.moved.release thread
  constructor
  · exact settled.moved move isData notHead rewritten.sound rewritten.shrinks rewritten.taken
      rewritten.remotePut
  · rw [move.dataNode, if_pos rfl]
    exact rewritten.fresh

/-- What a full node becomes when nobody else waits: it is written to a larger chunk, or, from type
16, split. -/
inductive Outgrows (source : SegmentSource) (start : ComputeNode) (thread : ThreadId) (target : NodeId)
    (key value : Str) (level : Level) (type : LinkedNodeType) (moved : ComputeNode) : Prop where
  | grown (notLast : type ≠ .type16) {chosen : LinkedNodeType} {remote : RemotePointer}
      (isData : chosen.IsData)
      (rewritten : Rewritten source (start.fetchTwo thread target) thread target
        (start.fetchedPred thread target)
        (sealedAs chosen ((start.fetchedReal thread target).store 16 key value).2) [] remote moved)
  | halved (isLast : type = .type16) {halves : LinkedNode × LinkedNode × Str} {l r : RemotePointer}
      (isHalves : splitBuffer
        ((bufferNode (start.fetchedReal thread target)).store bufferCapacity key value).2
        (start.fetchedReal thread target) ((start.fetchTwo thread target).buffers thread 2) 9 = halves)
      (split : SplitInTwo source (start.fetchTwo thread target) thread target
        (start.fetchedPred thread target) (sealedAs .type10 halves.1) (sealedAs .type10 halves.2.1)
        halves.2.2 .type10 .type10 [] level l r moved)

/-- The plan of each type for a single pending request. -/
theorem Settled.followPlan (settled : Settled source start) (known : target < start.slist.count)
    (notHead : target ≠ SkipList.head) (isData : type.IsData)
    (queue : (start.contexts thread).requests = []) (isDone : draws.batch = .done) :
    ∃ replies moved, (start.fetchTwo thread target).followPlan source thread target key value draws false
        (planOf type 1) = ⟨true, replies, moved⟩ ∧
      Outgrows source start thread target key value draws.level type moved := by
  have predTaken := settled.predTaken known notHead
  have buffers := start.fetchTwo_buffers thread target
  have sameQueue : ((start.fetchTwo thread target).contexts thread).requests = [] := queue
  have eager : ∀ notLast : type ≠ .type16, ∃ replies moved,
      (start.fetchTwo thread target).eagerMorph source thread target key value draws false =
        ⟨true, replies, moved⟩ ∧ Outgrows source start thread target key value draws.level type moved := by
    intro notLast
    have work : (start.fetchTwo thread target).eagerWork thread target key value false =
        ⟨start.fetchedPred thread target, ((start.fetchedReal thread target).store 16 key value).2, [], []⟩ := by
      unfold eagerWork
      rw [buffers.1, buffers.2, sameQueue]
      rfl
    obtain ⟨remote, moved, returned, rewritten⟩ := eagerMorph_done (start.fetchTwo thread target) thread
      target key value false settled.sound predTaken isDone work
    exact ⟨_, moved, returned, .grown notLast LinkedNodeType.isData16 rewritten⟩
  cases type with
  | type10 =>
      have work : (start.fetchTwo thread target).morphWork thread target key value false =
          ⟨start.fetchedPred thread target, ((start.fetchedReal thread target).store 16 key value).2, [],
            []⟩ := by
        unfold morphWork
        rw [buffers.1, buffers.2, sameQueue]
        rfl
      obtain ⟨remote, moved, returned, rewritten⟩ := morphPath_done (start.fetchTwo thread target) thread
        target key value false settled.sound predTaken isDone work
      exact ⟨_, moved, returned, .grown LinkedNodeType.noConfusion (morphNode_isData _) rewritten⟩
  | type12 => exact eager LinkedNodeType.noConfusion
  | type14 => exact eager LinkedNodeType.noConfusion
  | type16 =>
      have work : (start.fetchTwo thread target).splitWork thread target key value false =
          ⟨start.fetchedPred thread target,
            ((bufferNode (start.fetchedReal thread target)).store bufferCapacity key value).2, [], []⟩ := by
        unfold splitWork
        rw [buffers.1, buffers.2, sameQueue]
        rfl
      obtain ⟨l, r, moved, returned, split⟩ := splitPath_done (start.fetchTwo thread target) thread target
        key value 9 .type10 .type10 false settled.sound predTaken LinkedNodeType.isData10
        LinkedNodeType.isData10 known.ne isDone work rfl
      exact ⟨_, moved, returned, .halved rfl (by rw [← buffers.2]) split⟩
  | typeHead => exact absurd isData id
  | typeVar => exact absurd isData id
  | notSet => exact absurd isData id

/-- A node without room gets a new chunk, whatever its type is. -/
theorem Settled.full (settled : Settled source start) (known : target < start.slist.count)
    (notHead : target ≠ SkipList.head) (isData : type.IsData)
    (queue : (start.contexts thread).requests = []) (isDone : draws.batch = .done)
    (full : type.capacity ≤ (start.fetchedReal thread target).next) :
    ∃ replies moved, start.putWon source thread target key value draws type (planOf type) =
        ⟨true, replies, moved.release thread target⟩ ∧
      Outgrows source start thread target key value draws.level type moved := by
  obtain ⟨replies, moved, followed, outgrows⟩ := @Settled.followPlan source start thread target type _ key
    value draws settled known notHead isData queue isDone
  rw [putWon_full key value draws (planOf type) full, queue]
  simp only [List.length_nil, Nat.zero_add]
  rw [followed]
  exact ⟨replies, moved, rfl, outgrows⟩

/-- The node's new chunk was in reserve. -/
theorem Outgrows.settled {level : Level} {moved : ComputeNode}
    (outgrows : Outgrows source start thread target key value level type moved)
    (settled : Settled source start) (known : target < start.slist.count)
    (notHead : target ≠ SkipList.head) :
    Settled source (moved.release thread target) ∧
      RemoteHeap.Reserve source start.heap ((moved.release thread target).slist.nodes target).dataNode := by
  cases outgrows with
  | grown notLast isData rewritten => exact settled.rewritten notHead rewritten isData
  | halved isLast isHalves split =>
      have nodes := split.released known.ne
      refine ⟨?_, ?_⟩
      · exact settled.divided nodes LinkedNodeType.isData10 LinkedNodeType.isData10 known notHead split.sound
          split.shrinks split.leftFresh.2 split.rightFresh.2 split.remotePut
      · rw [nodes.left.1]
        exact split.leftFresh.1

/-- A put that is routed to a data node, from its locks on. -/
theorem Settled.put_won (settled : Settled source node) (idle : Idle node) (thread : ThreadId)
    (found : node.slist.fuzzySearch key = some target) (notHead : target ≠ SkipList.head) (value : Str)
    (flush : FlushDraws) (draws : PutDraws) :
    ∃ won, WonInsert node won thread target ∧ Settled source won ∧
      node.put source thread key value flush draws =
        let outcome := won.putWon source thread target key value draws (node.slist.nodes target).type
          (planOf (node.slist.nodes target).type)
        (if outcome.ret then .returned true else .thrown, outcome.node) := by
  have known := idle.closed.fuzzySearch_lt found
  have placed := settled.placed target known notHead
  obtain ⟨won, isWon, wonInsert⟩ := idle.wins thread placed.apart
  refine ⟨won, wonInsert, settled.won known notHead wonInsert, ?_⟩
  unfold ComputeNode.put remotePutCall putDispatcher
  simp only [settled.remotePut, if_true, found, if_pos placed.isData, isWon]
  rw [putFor_eq _ _ _ _ _ _ _ placed.isData]

omit [Digest] in
/-- A node that a winner has locked is the one it was. -/
theorem WonInsert.same {won : ComputeNode} (wonInsert : WonInsert node won thread target) :
    won.slist.count = node.slist.count ∧ (won.slist.nodes target).dataNode = (node.slist.nodes target).dataNode ∧
      (won.slist.nodes target).type = (node.slist.nodes target).type ∧
      won.imageOf target = node.imageOf target := by
  have sameData := wonInsert.moved.dataNode target
  have sameType := wonInsert.moved.type target
  rw [if_pos rfl] at sameData sameType
  refine ⟨wonInsert.moved.count, sameData, sameType, ?_⟩
  unfold imageOf
  rw [sameData, wonInsert.remote]

omit [Digest] in
/-- The fetch covers the header of a data node. -/
theorem fetchedReal_next (isData : (node.slist.nodes target).type.IsData) :
    (node.fetchedReal thread target).next = (node.imageOf target).next :=
  LinkedNode.overlay_next (sizeofNode_ne_zero isData)

/-- A put of any record that is routed to a data node returns true and keeps the store settled. -/
theorem Settled.put (settled : Settled source node) (idle : Idle node)
    (found : node.slist.fuzzySearch key = some target) (notHead : target ≠ SkipList.head)
    {flush : FlushDraws} (done : AllWritesDone flush draws) :
    ∃ after, node.put source thread key value flush draws = (.returned true, after) ∧
      Settled source after ∧
      ((node.slist.nodes target).type.capacity ≤ (node.imageOf target).next →
        RemoteHeap.Reserve source node.heap (after.slist.nodes target).dataNode) := by
  have known := idle.closed.fuzzySearch_lt found
  have isData := (settled.placed target known notHead).isData
  obtain ⟨won, wonInsert, wonSettled, isPut⟩ := settled.put_won idle thread found notHead value flush draws
  obtain ⟨sameCount, _, sameType, sameImage⟩ := wonInsert.same
  have sameNext : (won.fetchedReal thread target).next = (node.imageOf target).next := by
    rw [fetchedReal_next (sameType ▸ isData), sameImage]
  rw [isPut]
  by_cases room : (won.fetchedReal thread target).next < (node.slist.nodes target).type.capacity
  · obtain ⟨after, returned, kept, _⟩ := @Settled.inPlace source won thread target _ _ key value draws
      wonSettled (sameCount ▸ known) notHead sameType wonInsert.requests done.write (planOf _) room
    rw [returned]
    refine ⟨after, rfl, kept, fun full => ?_⟩
    rw [sameNext] at room
    exact absurd room (not_lt.mpr full)
  · have wonKnown : target < won.slist.count := sameCount ▸ known
    obtain ⟨replies, moved, returned, outgrows⟩ := @Settled.full source won thread target _ _ key value
      draws wonSettled wonKnown notHead isData wonInsert.requests done.batch (not_lt.mp room)
    obtain ⟨kept, fresh⟩ := outgrows.settled wonSettled wonKnown notHead
    rw [wonInsert.heap] at fresh
    rw [returned]
    exact ⟨_, rfl, kept, fun _ => fresh⟩

end Put

/-! ### The flush -/

section Flush

variable [Digest] {slot : Fin 2} {key value : Str} {draws : FlushDraws} {larger smaller : RemotePointer}

/-- A flush that starts with ordered anchors leaves two data nodes. -/
theorem Flushed.settled (flushed : Flushed source thread node slot key value draws larger smaller after)
    (slist : node.slist = .empty node.fakeHead)
    (ordered : node.stage.anchors 0 ≤ node.stage.anchors 1) : Settled source after := by
  obtain ⟨remotes, types, isData, taken, isList⟩ : ∃ (remotes : Fin 2 → RemotePointer)
      (types : Fin 2 → LinkedNodeType), (∀ place, (types place).IsData) ∧
      (∀ place, ¬ RemoteHeap.Reserve source after.heap (remotes place)) ∧
      after.slist = ((SkipList.empty node.fakeHead).insert (node.stage.anchors 0) (remotes 0) (types 0)
        draws.firstLevel.val).insert (node.stage.anchors 1) (remotes 1) (types 1) draws.secondLevel.val := by
    refine ⟨fun place => if place = slot then larger else smaller,
      fun place => if place = slot then .type12 else .type10, fun place => ?_, fun place => ?_, ?_⟩
    · by_cases isSlot : place = slot
      · simp only [if_pos isSlot]
        trivial
      · simp only [if_neg isSlot]
        trivial
    · by_cases isSlot : place = slot
      · simp only [if_pos isSlot]
        exact flushed.largerTaken
      · simp only [if_neg isSlot]
        exact flushed.smallerTaken
    · rw [flushed.slist, slist]
      rcases Fin.exists_fin_two.mp ⟨slot, rfl⟩ with isFirst | isSecond
      · rw [isFirst]
        rfl
      · rw [isSecond]
        rfl
  obtain ⟨_, _, _, nodes⟩ := SkipList.insert_two_spec node.fakeHead ordered (remotes 0) (remotes 1) (types 0)
    (types 1) draws.firstLevel.property.1 draws.secondLevel.property.1
  rw [← isList] at nodes
  constructor
  case remotePut => exact flushed.remotePut
  case sound => exact flushed.sound
  case headType => exact nodes.headType
  case headTaken =>
    rw [nodes.headNode]
    exact flushed.headTaken
  case placed =>
    intro id known isOther
    rw [nodes.count] at known
    have place : id = 1 ∨ id = 2 := by
      have positive := Nat.pos_of_ne_zero isOther
      omega
    rcases place with isFirst | isSecond
    · have pointsBack : after.backwardOf 1 = if node.stage.anchors 0 = node.stage.anchors 1 then 2
          else SkipList.head := by
        unfold backwardOf
        rw [nodes.backward.1]
        rfl
      rw [isFirst]
      constructor
      · rw [nodes.type.1]
        exact isData 0
      · rw [nodes.dataNode.1]
        exact taken 0
      · rw [pointsBack, nodes.count]
        split
        next => decide
        next => decide
      · rw [pointsBack]
        split
        next => decide
        next => decide
    · have pointsBack : after.backwardOf 2 = if node.stage.anchors 0 = node.stage.anchors 1 then SkipList.head
          else 1 := by
        unfold backwardOf
        rw [nodes.backward.2]
        rfl
      rw [isSecond]
      constructor
      · rw [nodes.type.2]
        exact isData 1
      · rw [nodes.dataNode.2]
        exact taken 1
      · rw [pointsBack, nodes.count]
        split
        next => decide
        next => decide
      · rw [pointsBack]
        split
        next => decide
        next => decide

end Flush

/-! ### Runs of puts -/

/-- The states that puts of one client reach from an initialized compute node, when every write is
done; the background thread may run between them. -/
inductive PutRun [Digest] (source : SegmentSource) (thread : ThreadId) : ComputeNode → Prop where
  | initialized (main : ThreadId) (memory : RemotePointer → LinkedNode)
      (buffers : ThreadId → Nat → LinkedNode) (heap : Fin 2 → LinkedNode) :
      PutRun source thread (initialized source main memory buffers heap)
  | put {node after : ComputeNode} (before : PutRun source thread node) (key value : Bytes16)
      {flush : FlushDraws} {draws : PutDraws} (done : AllWritesDone flush draws) {result : Bool}
      (returned : node.put source thread key.val value.val flush draws = (.returned result, after)) :
      PutRun source thread after
  | calibrate {node : ComputeNode} (before : PutRun source thread node) :
      PutRun source thread node.calibrateNext

section Run

variable [Digest]

theorem PutRun.clientRun (run : PutRun source thread node) : ClientRun source thread node := by
  induction run with
  | initialized main memory buffers heap => exact .initialized main memory buffers heap
  | put _ key value _ returned inductionHypothesis =>
      exact inductionHypothesis.step (.put key value _ _ returned)
  | calibrate _ inductionHypothesis => exact inductionHypothesis.step .calibrate

/-- Before the flush: nothing waits for the background thread. -/
structure Staging (source : SegmentSource) (node : ComputeNode) : Prop where
  unflushed : Unflushed source node
  queue : node.updateQueue = []

/-- A put that the local stage takes. -/
theorem Staging.put_stays (staging : Staging source node) {key value : Bytes16} {flush : FlushDraws}
    {draws : PutDraws} {stage : LocalStage} (stays : node.stage.quickPut key.val value.val = some stage)
    {result : Bool}
    (returned : node.put source thread key.val value.val flush draws = (.returned result, after)) :
    Staging source after := by
  have unflushed := staging.unflushed
  unfold ComputeNode.put at returned
  rw [if_neg (by rw [unflushed.staysLocal]; decide), quickPut_stays unflushed.staysLocal stays] at returned
  cases returned
  exact ⟨⟨unflushed.slist, unflushed.sound, unflushed.headTaken, unflushed.staysLocal,
    LocalStage.shape_quickPut unflushed.shape stays, unflushed.tag⟩, staging.queue⟩

/-- A put that the local stage refuses. -/
theorem Staging.put_flushes (staging : Staging source node) {key value : Bytes16} {flush : FlushDraws}
    {draws : PutDraws} (done : AllWritesDone flush draws)
    (full : node.stage.quickPut key.val value.val = none) {result : Bool}
    (returned : node.put source thread key.val value.val flush draws = (.returned result, after)) :
    ∃ larger smaller, Flushed source thread
      { node with stage := (node.stage.quickPutPickNode key.val).1 }
      (node.stage.quickPutPickNode key.val).2 key.val value.val flush larger smaller after := by
  have unflushed := staging.unflushed
  obtain ⟨larger, smaller, flushedNode, isFlush, flushed⟩ := flush_spec
    { node with stage := (node.stage.quickPutPickNode key.val).1 } thread unflushed.sound
    unflushed.headTaken (node.stage.quickPutPickNode key.val).2 key.val value.val done.larger done.smaller
  unfold ComputeNode.put at returned
  rw [if_neg (by rw [unflushed.staysLocal]; decide), quickPut_flushes unflushed full, isFlush] at returned
  cases returned
  exact ⟨larger, smaller, flushed⟩

/-- A refused key leaves the order of the anchors as it is. -/
theorem Staging.picked (staging : Staging source node) {key value : Bytes16}
    (full : node.stage.quickPut key.val value.val = none) :
    let picked := (node.stage.quickPutPickNode key.val).1
    picked.nodes = node.stage.nodes ∧ picked.anchors 0 ≤ picked.anchors 1 ∧
      (picked.anchors 0 = picked.anchors 1 ↔ node.stage.anchors 0 = node.stage.anchors 1) := by
  have shape := staging.unflushed.shape
  have refused := LocalStage.quickPut_eq_none_iff.mp full
  obtain ⟨hasSecond, nodes, second, first, picks⟩ :=
    shape.full_pick (LocalStage.pick_spec node.stage key.val) refused
  have ordered := not_lt.mp (shape.ordered hasSecond)
  simp only
  rw [second, first]
  refine ⟨nodes, (min_le_right _ _).trans ordered, ?_⟩
  rcases picks with ⟨_, _, differ⟩ | ⟨_, _, notBelow⟩
  · constructor
    · intro same
      exact absurd (le_antisymm ordered (same ▸ min_le_right _ _)) differ
    · intro same
      exact absurd same differ
  · rw [min_eq_right (not_lt.mp notBelow)]

/-- A put before the flush stays local, or flushes. -/
theorem Staging.put (staging : Staging source node) {key value : Bytes16} {flush : FlushDraws}
    {draws : PutDraws} (done : AllWritesDone flush draws) {result : Bool}
    (returned : node.put source thread key.val value.val flush draws = (.returned result, after)) :
    Staging source after ∨ Settled source after := by
  cases stays : node.stage.quickPut key.val value.val with
  | some next => exact Or.inl (staging.put_stays stays returned)
  | none =>
      obtain ⟨larger, smaller, flushed⟩ := staging.put_flushes done stays returned
      exact Or.inr (flushed.settled staging.unflushed.slist (staging.picked stays).2.1)

/-- A put after the flush that returns was routed to a data node. -/
theorem Settled.put_routed (settled : Settled source node) {key value : Str} {flush : FlushDraws}
    {draws : PutDraws} {result : Bool}
    (returned : node.put source thread key value flush draws = (.returned result, after)) :
    ∃ target, node.slist.fuzzySearch key = some target ∧ target ≠ SkipList.head := by
  cases found : node.slist.fuzzySearch key with
  | none =>
      unfold ComputeNode.put remotePutCall at returned
      rw [if_pos settled.remotePut, found] at returned
      cases congrArg Prod.fst returned
  | some target =>
      refine ⟨target, rfl, fun isHead => ?_⟩
      unfold ComputeNode.put remotePutCall putDispatcher at returned
      rw [if_pos settled.remotePut, found, isHead] at returned
      simp only [settled.headType] at returned
      rw [if_neg (show ¬ LinkedNodeType.typeHead.IsData from id)] at returned
      cases congrArg Prod.fst returned

theorem Settled.put_returned (settled : Settled source node) (idle : Idle node) {key value : Str}
    {flush : FlushDraws} {draws : PutDraws} (done : AllWritesDone flush draws) {result : Bool}
    (returned : node.put source thread key value flush draws = (.returned result, after)) :
    Settled source after := by
  obtain ⟨target, found, notHead⟩ := settled.put_routed returned
  obtain ⟨state, isPut, kept, _⟩ := @Settled.put source node thread target _ key value draws settled idle
    found notHead flush done
  rw [isPut] at returned
  cases returned
  exact kept

/-- Every state of such a run is before the flush or settled. -/
theorem PutRun.stages (run : PutRun source thread node) : Staging source node ∨ Settled source node := by
  induction run with
  | initialized main memory buffers heap =>
      exact Or.inl ⟨initialized_unflushed source main memory buffers heap (LocalStage.shape_initial heap), rfl⟩
  | put before key value done returned inductionHypothesis =>
      rcases inductionHypothesis with staging | settled
      · exact staging.put done returned
      · exact Or.inr (settled.put_returned before.clientRun.idle done returned)
  | calibrate before inductionHypothesis =>
      rcases inductionHypothesis with staging | settled
      · unfold ComputeNode.calibrateNext
        rw [staging.queue]
        exact Or.inl staging
      · exact Or.inr settled.calibrateNext

/-- After the flush the store is settled. -/
theorem PutRun.settled (run : PutRun source thread node) (flushed : node.remotePut = true) :
    Settled source node := by
  rcases run.stages with staging | settled
  · rw [staging.unflushed.staysLocal] at flushed
    cases flushed
  · exact settled

theorem PutRun.putAll {flush : FlushDraws} {draws : PutDraws} {records : List (Bytes16 × Bytes16)}
    (run : PutRun source thread node) (done : AllWritesDone flush draws)
    (reached : putAll source thread flush draws node records = some after) : PutRun source thread after :=
  putAll_keeps (fun _ record _ _ before returned => before.put record.1 record.2 done returned) run reached

end Run

end DiStore.Cluster.ComputeNode
