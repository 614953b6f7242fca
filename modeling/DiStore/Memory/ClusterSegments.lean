import DiStore.Library.Holders
import DiStore.Memory.PointerArithmetic
import DiStore.Memory.SegmentFallback

/-!
Contract: all compute nodes and memory nodes of a cluster, with the segment exchanges between them.

Owns: `offer_remote_segment` as a request, its service and its response, in any interleaving with the
allocations of all threads, and that no byte of remote memory is ever in two chunks of the cluster.

Does not own: the nested call after a null response (`Memory.SegmentFallback`), and `deallocate`,
which no compute node requests.

## What is one step

A compute node has one exchange under way at most. This is a precondition: `offer_remote_segment`
takes no lock, and its threads share `info->done` and `resp_buf`, so of two exchanges at a time both
may apply one segment. The service of a request is one step of the memory node, whose event loop has
one thread. Requests and responses wait as long as they like. An exchange goes no further if its
response is null, or carries an id that is no index of `memory_nodes` (`get_base_addr`).
-/

set_option autoImplicit false

namespace DiStore.Memory

open DiStore.Concurrency DiStore.Library

/-- How far a compute node is in `offer_remote_segment`. -/
inductive Offer where
  | none
  /-- The request to a memory node is on its way. -/
  | asked (place : Nat)
  /-- The response is in `resp_buf`, or on its way there. -/
  | answered (remote : TaggedPointer)
deriving DecidableEq

/-- The segment that a response has brought and no call has taken up. -/
def Offer.pending : Offer → List Nat
  | .none => []
  | .asked _ => []
  | .answered remote => if remote.isNullptr then [] else [remote.toNat]

theorem Offer.pending_answered (remote : TaggedPointer) :
    (Offer.answered remote).pending = if remote.isNullptr then [] else [remote.toNat] := rfl

/-- A compute node: its allocator with the calls of its threads, and its manager. -/
structure ComputeMember where
  run : AllocatorRun
  current : BitVec 32
  offer : Offer

/-- The segments of a compute node, the one on its way among them. -/
def ComputeMember.held (member : ComputeMember) : List Nat :=
  member.offer.pending ++ member.run.segments.map Segment.seg

structure SegmentCluster where
  memoryNodes : List MemoryNode
  members : Nat → ComputeMember

/-- The phases of `allocate`, and `free`, of any thread. -/
inductive CallStep : AllocatorRun → AllocatorRun → Prop where
  | register {run : AllocatorRun} (thread : ThreadId) (size : Nat) (isIdle : run.progress thread = .idle)
      (large : 17 ≤ size) (small : size ≤ 4096) : CallStep run (run.register thread size)
  | prepare {run : AllocatorRun} (thread : ThreadId) (allocationClass : AllocationClass)
      (isRegistered : run.progress thread = .registered allocationClass) :
      CallStep run (run.prepare thread allocationClass)
  | take {run : AllocatorRun} (thread : ThreadId) (allocationClass : AllocationClass)
      (isPrepared : run.progress thread = .prepared allocationClass) :
      CallStep run (run.take thread allocationClass)
  | free {run next : AllocatorRun} (remote : RemotePointer) (isFreed : run.free remote = some next) :
      CallStep run next

namespace SegmentCluster

variable (cluster : SegmentCluster) (member : Nat)

def setMember (changed : ComputeMember) : SegmentCluster :=
  { cluster with members := Function.update cluster.members member changed }

/-- `memory_nodes[(current++) % memory_nodes.size()]` and the request to it. -/
def ask : SegmentCluster :=
  let asking := cluster.members member
  cluster.setMember member { asking with
    current := asking.current + 1
    offer := .asked ((asking.current.signExtend 64).toNat % cluster.memoryNodes.length) }

/-- `allocation_handler` on the memory node at `place`. -/
def serve (place : Nat) (node : MemoryNode) : SegmentCluster :=
  { memoryNodes := cluster.memoryNodes.set place node.allocationHandler.2
    members := Function.update cluster.members member
      { cluster.members member with offer := .answered node.allocationHandler.1 } }

/-- The response, and `apply_for_memory` with the base address that `get_base_addr` finds. -/
def receive (remote : TaggedPointer) : SegmentCluster :=
  let asking := cluster.members member
  cluster.setMember member { asking with
    run := asking.run.applyForMemory remote.toNat
    offer := .none }

inductive Step : SegmentCluster → SegmentCluster → Prop where
  | call {cluster : SegmentCluster} (member : Nat) {next : AllocatorRun}
      (step : CallStep (cluster.members member).run next) :
      Step cluster (cluster.setMember member { cluster.members member with run := next })
  /-- Nothing in the source keeps a second thread of the compute node from asking too. -/
  | ask {cluster : SegmentCluster} (member : Nat) (isFree : (cluster.members member).offer = .none) :
      Step cluster (cluster.ask member)
  | serve {cluster : SegmentCluster} (member place : Nat) (node : MemoryNode)
      (isAsked : (cluster.members member).offer = .asked place)
      (isNode : cluster.memoryNodes[place]? = some node) : Step cluster (cluster.serve member place node)
  | receive {cluster : SegmentCluster} (member : Nat) (remote : TaggedPointer)
      (isAnswered : (cluster.members member).offer = .answered remote) (notNull : remote.isNullptr = false)
      (isIndex : remote.getNode < cluster.memoryNodes.length) : Step cluster (cluster.receive member remote)

/-- The memory nodes have different numbers, of six bits. -/
structure Numbered (memoryNodes : List MemoryNode) : Prop where
  distinct : ∀ (left right : Nat) (node other : MemoryNode), memoryNodes[left]? = some node →
    memoryNodes[right]? = some other → node.nodeId = other.nodeId → left = right
  inRange : ∀ node ∈ memoryNodes, node.nodeId.toNat < 64

/-- Before any exchange; the memory nodes may have granted segments to others. -/
def start (memoryNodes : List MemoryNode) : SegmentCluster := ⟨memoryNodes, fun _ => ⟨.start, 0, .none⟩⟩

inductive Reached : SegmentCluster → Prop where
  | start (memoryNodes : List MemoryNode) (numbered : Numbered memoryNodes) : Reached (start memoryNodes)
  | step {cluster next : SegmentCluster} (before : Reached cluster) (step : Step cluster next) : Reached next

end SegmentCluster

/-! ### Pointers to segments -/

namespace MemoryNode

variable {node other : MemoryNode} {no otherNo : Nat}

theorem segmentAt_below (inside : no < node.allocator.bitmap.bytes * 8) :
    node.allocator.segmentAt no + segmentSize < 2 ^ 47 := by
  have last := Nat.mul_le_mul_right segmentSize (show no + 1 ≤ node.allocator.bitmap.bytes * 8 from inside)
  rw [Nat.add_mul, Nat.one_mul] at last
  have bounded := node.inUserSpace
  unfold MemoryNodeAllocator.segmentAt
  omega

/-- The number of the node stands above the address. -/
theorem toNat_pointerTo (inRange : node.nodeId.toNat < 64) (inside : no < node.allocator.bitmap.bytes * 8) :
    (node.pointerTo no).toNat = (128 + node.nodeId.toNat) * 2 ^ 56 + node.allocator.segmentAt no := by
  have below := segmentAt_below inside
  have inProcess : node.allocator.segmentAt no < 2 ^ 48 := by omega
  have isTag : BitVec.ofNat 64 node.nodeId.toNat = node.nodeId := by simp
  have number := TaggedPointer.toNat_makeRemotePointer inRange inProcess
  rw [isTag] at number
  exact number

/-- Two segments of the cluster's memory nodes share no byte. -/
theorem pointers_apart (inRange : node.nodeId.toNat < 64) (inside : no < node.allocator.bitmap.bytes * 8)
    (otherInRange : other.nodeId.toNat < 64) (otherInside : otherNo < other.allocator.bitmap.bytes * 8)
    (differ : node.nodeId = other.nodeId → node = other ∧ no ≠ otherNo) :
    AllocatorRun.SegmentsApart (node.pointerTo no).toNat (other.pointerTo otherNo).toNat := by
  have below := segmentAt_below inside
  have otherBelow := segmentAt_below otherInside
  rw [toNat_pointerTo inRange inside, toNat_pointerTo otherInRange otherInside]
  unfold AllocatorRun.SegmentsApart
  by_cases sameNode : node.nodeId = other.nodeId
  · obtain ⟨isOther, otherSegment⟩ := differ sameNode
    rw [← isOther]
    unfold MemoryNodeAllocator.segmentAt
    rcases Nat.lt_or_gt_of_ne otherSegment with low | high
    · have gap := Nat.mul_le_mul_right segmentSize (show no + 1 ≤ otherNo from low)
      rw [Nat.add_mul, Nat.one_mul] at gap
      exact Or.inl (by omega)
    · have gap := Nat.mul_le_mul_right segmentSize (show otherNo + 1 ≤ no from high)
      rw [Nat.add_mul, Nat.one_mul] at gap
      exact Or.inr (by omega)
  · have otherTag : node.nodeId.toNat ≠ other.nodeId.toNat := fun same => sameNode (BitVec.eq_of_toNat_eq same)
    omega

/-- What a memory node does about a request: the lowest free segment is set, or none is free. -/
theorem allocationHandler_sets (node : MemoryNode) :
    (∃ no < node.allocator.bitmap.bytes * 8, node.allocator.bitmap.isSet no = false ∧
      node.allocationHandler.1 = node.pointerTo no ∧
      node.allocationHandler.2.allocator.bitmap.isSet no = true ∧
      ∀ set, node.allocator.bitmap.isSet set = true →
        node.allocationHandler.2.allocator.bitmap.isSet set = true) ∨
    node.allocationHandler.1.isNullptr = true ∧ node.allocationHandler.2 = node := by
  rcases node.allocationHandler_cases with ⟨_, _, no, inside, clear, set, reply⟩ | ⟨_, null, same⟩
  · refine Or.inl ⟨no, inside, clear, reply, set, fun old isSet => ?_⟩
    rcases node.allocator.allocate_cases with ⟨_, after, allocated, _, _, _, _, sets⟩ | ⟨_, allocated⟩
    · rw [allocationHandler_allocator, allocated, sets, isSet, Bool.true_or]
    · rw [allocationHandler_allocator, allocated]
      exact isSet
  · exact Or.inr ⟨null, same⟩

/-- A request changes neither the place of a region nor the size of its map. -/
theorem allocationHandler_region (node : MemoryNode) :
    node.allocationHandler.2.allocator.region = node.allocator.region ∧
      node.allocationHandler.2.allocator.bitmap.bytes = node.allocator.bitmap.bytes := by
  rw [allocationHandler_allocator]
  rcases node.allocator.allocate_cases with ⟨_, after, allocated, _, _, region, bytes, _⟩ | ⟨_, allocated⟩
  · rw [allocated]
    exact ⟨region, bytes⟩
  · rw [allocated]
    exact ⟨rfl, rfl⟩

theorem pointerTo_allocationHandler (node : MemoryNode) (no : Nat) :
    node.allocationHandler.2.pointerTo no = node.pointerTo no := by
  unfold pointerTo MemoryNodeAllocator.segmentAt
  rw [node.allocationHandler_region.1]
  rfl

end MemoryNode

/-! ### The calls of a compute node -/

namespace ComputeNodeAllocator

variable {allocator next : ComputeNodeAllocator} {thread : ThreadId} {allocationClass : AllocationClass}

/-- Refills take pages from the current segment, and never another segment. -/
theorem refill_seg (refilled : allocator.refill thread = some next) :
    next.current.map Segment.seg = allocator.current.map Segment.seg := by
  unfold refill at refilled
  obtain ⟨segment, isSource, isNext⟩ := Option.map_eq_some_iff.mp refilled
  obtain ⟨isCurrent, room⟩ := AllocatorRun.refillSource_some isSource
  rw [← isNext, isCurrent]
  exact congrArg some (offerPages_refilled pageGroupNo segment room).seg

theorem refillPages_seg (group : PageGroup) (segment : Segment) :
    (Segment.refillPages allocationClass group segment).2.seg = segment.seg := by
  induction group generalizing segment with
  | nil => rfl
  | cons page pages inductionHypothesis =>
    unfold Segment.refillPages
    by_cases full : page.allocationClass = allocationClass ∧ page.available = false
    · rw [if_pos full]
      exact inductionHypothesis segment.offerPage.2
    · rw [if_neg full]
      exact inductionHypothesis segment

theorem refillSinglePage_seg {group : PageGroup}
    (refilled : allocator.refillSinglePage thread group allocationClass = some next) :
    next.current.map Segment.seg = allocator.current.map Segment.seg := by
  unfold refillSinglePage at refilled
  obtain ⟨segment, isSource, isNext⟩ := Option.map_eq_some_iff.mp refilled
  rw [← isNext, (AllocatorRun.refillSource_some isSource).1]
  exact congrArg some (refillPages_seg group segment)

theorem register_seg (registered : allocator.register thread = some next) :
    next.current.map Segment.seg = allocator.current.map Segment.seg := by
  unfold register at registered
  split at registered
  next => exact refill_seg registered
  next => rw [← Option.some.inj registered]

theorem prepare_seg (prepared : allocator.prepare thread allocationClass = some next) :
    next.current.map Segment.seg = allocator.current.map Segment.seg := by
  unfold prepare at prepared
  simp only at prepared
  split at prepared
  next => rw [← Option.some.inj prepared]
  next => exact refillSinglePage_seg prepared
  next => exact refill_seg prepared

theorem allocateFrom_current (allocator : ComputeNodeAllocator) (thread : ThreadId)
    (allocationClass : AllocationClass) :
    (allocator.allocateFrom thread allocationClass).2.current = allocator.current := by
  unfold allocateFrom
  cases allocator.threadInfo thread with
  | none => rfl
  | some group => rfl

theorem foldl_freeIn_current (segments : List Segment) (remote : RemotePointer)
    (allocator : ComputeNodeAllocator) :
    (segments.foldl (fun allocator segment => allocator.freeIn segment remote) allocator).current =
      allocator.current := by
  induction segments generalizing allocator with
  | nil => rfl
  | cons segment segments inductionHypothesis =>
    rw [List.foldl_cons, inductionHypothesis]
    unfold freeIn
    split
    next => rfl
    next => rfl

end ComputeNodeAllocator

namespace CallStep

variable {run next : AllocatorRun}

theorem toStep (step : CallStep run next) : AllocatorRun.Step run next := by
  cases step with
  | register thread size isIdle large small => exact .register thread size isIdle large small
  | prepare thread allocationClass isRegistered => exact .prepare thread allocationClass isRegistered
  | take thread allocationClass isPrepared => exact .take thread allocationClass isPrepared
  | free remote isFreed => exact .free remote isFreed

theorem map_segments {allocator after : ComputeNodeAllocator} (retired : List Segment)
    (same : after.current.map Segment.seg = allocator.current.map Segment.seg) :
    (after.current.toList ++ retired).map Segment.seg = (allocator.current.toList ++ retired).map Segment.seg := by
  rw [List.map_append, List.map_append, ← Option.toList_map, ← Option.toList_map, same]

/-- No call by itself takes up or gives back a segment. -/
theorem sameSegments (step : CallStep run next) :
    next.segments.map Segment.seg = run.segments.map Segment.seg := by
  cases step with
  | register thread size _ _ _ =>
    unfold AllocatorRun.register
    split
    next => rfl
    next allocator registered => exact map_segments _ (ComputeNodeAllocator.register_seg registered)
  | prepare thread allocationClass _ =>
    unfold AllocatorRun.prepare
    split
    next => rfl
    next allocator prepared => exact map_segments _ (ComputeNodeAllocator.prepare_seg prepared)
  | take thread allocationClass _ =>
    apply map_segments
    exact congrArg (Option.map Segment.seg) (run.allocator.allocateFrom_current thread allocationClass)
  | free remote isFreed =>
    obtain ⟨current, _, isNext⟩ := Option.map_eq_some_iff.mp isFreed
    rw [← isNext]
    apply map_segments
    rw [ComputeNodeAllocator.foldl_freeIn_current]

end CallStep

/-! ### The invariant -/

namespace SegmentCluster

variable {cluster next : SegmentCluster} {memoryNodes : List MemoryNode} {place : Nat} {node : MemoryNode}

/-- `seg` is a segment that one of the memory nodes has granted. -/
def Granted (memoryNodes : List MemoryNode) (seg : Nat) : Prop :=
  ∃ node ∈ memoryNodes, ∃ no < node.allocator.bitmap.bytes * 8,
    node.allocator.bitmap.isSet no = true ∧ seg = (node.pointerTo no).toNat

theorem Numbered.same (numbered : Numbered memoryNodes) {left right : MemoryNode} (leftNode : left ∈ memoryNodes)
    (rightNode : right ∈ memoryNodes) (isId : left.nodeId = right.nodeId) : left = right := by
  obtain ⟨leftPlace, isLeft⟩ := List.mem_iff_getElem?.mp leftNode
  obtain ⟨rightPlace, isRight⟩ := List.mem_iff_getElem?.mp rightNode
  rw [numbered.distinct leftPlace rightPlace left right isLeft isRight isId, isRight] at isLeft
  exact (Option.some.inj isLeft).symm

/-- The memory nodes after one of them has served a request. -/
theorem served_cases (isNode : memoryNodes[place]? = some node) {other : Nat} {found : MemoryNode}
    (isFound : (memoryNodes.set place node.allocationHandler.2)[other]? = some found) :
    other = place ∧ found = node.allocationHandler.2 ∨ other ≠ place ∧ memoryNodes[other]? = some found := by
  by_cases isPlace : other = place
  · have inside : place < memoryNodes.length := (List.getElem?_eq_some_iff.mp isNode).1
    rw [isPlace, List.getElem?_set_self inside] at isFound
    exact Or.inl ⟨isPlace, (Option.some.inj isFound).symm⟩
  · rw [List.getElem?_set_ne (Ne.symm isPlace)] at isFound
    exact Or.inr ⟨isPlace, isFound⟩

theorem Numbered.served (numbered : Numbered memoryNodes) (isNode : memoryNodes[place]? = some node) :
    Numbered (memoryNodes.set place node.allocationHandler.2) where
  distinct left right found other isFound isOther isId := by
    rcases served_cases isNode isFound with ⟨isLeft, isServed⟩ | ⟨_, leftOld⟩
    · rcases served_cases isNode isOther with ⟨isRight, _⟩ | ⟨_, rightOld⟩
      · exact isLeft.trans isRight.symm
      · rw [isServed] at isId
        exact isLeft.trans (numbered.distinct place right node other isNode rightOld isId)
    · rcases served_cases isNode isOther with ⟨isRight, isServed⟩ | ⟨_, rightOld⟩
      · rw [isServed] at isId
        exact (numbered.distinct left place found node leftOld isNode isId).trans isRight.symm
      · exact numbered.distinct left right found other leftOld rightOld isId
  inRange found isMember := by
    obtain ⟨other, isFound⟩ := List.mem_iff_getElem?.mp isMember
    rcases served_cases isNode isFound with ⟨_, isServed⟩ | ⟨_, old⟩
    · rw [isServed]
      exact numbered.inRange node (List.mem_of_getElem? isNode)
    · exact numbered.inRange found (List.mem_of_getElem? old)

/-- A grant stays one. -/
theorem Granted.served {seg : Nat} (granted : Granted memoryNodes seg) (isNode : memoryNodes[place]? = some node) :
    Granted (memoryNodes.set place node.allocationHandler.2) seg := by
  obtain ⟨old, isMember, no, inside, isSet, isSeg⟩ := granted
  obtain ⟨oldPlace, isOld⟩ := List.mem_iff_getElem?.mp isMember
  by_cases isPlace : oldPlace = place
  · rw [isPlace, isNode] at isOld
    rw [← Option.some.inj isOld] at inside isSet isSeg
    refine ⟨node.allocationHandler.2, List.mem_set (List.getElem?_eq_some_iff.mp isNode).1 _, no, ?_, ?_, ?_⟩
    · rw [node.allocationHandler_region.2]
      exact inside
    · rcases node.allocationHandler_sets with ⟨_, _, _, _, _, sets⟩ | ⟨_, same⟩
      · exact sets no isSet
      · rw [same]
        exact isSet
    · rw [node.pointerTo_allocationHandler]
      exact isSeg
  · have stays : (memoryNodes.set place node.allocationHandler.2)[oldPlace]? = some old := by
      rw [List.getElem?_set_ne (Ne.symm isPlace)]
      exact isOld
    exact ⟨old, List.mem_of_getElem? stays, no, inside, isSet, isSeg⟩

/-- Every segment that a compute node holds is granted, and to it alone. -/
structure Consistent (cluster : SegmentCluster) : Prop where
  numbered : Numbered cluster.memoryNodes
  granted : ∀ member, ∀ seg ∈ (cluster.members member).held, Granted cluster.memoryNodes seg
  separate : Separate AllocatorRun.SegmentsApart fun member => (cluster.members member).held
  runs : ∀ member, (cluster.members member).run.Reached

theorem consistent_start (numbered : Numbered memoryNodes) : Consistent (start memoryNodes) where
  numbered := numbered
  granted _ _ isMember := by cases isMember
  separate := Separate.nothing
  runs _ := AllocatorRun.Reached.start

theorem held_update (member other : Nat) (changed : ComputeMember) :
    (Function.update cluster.members member changed other).held =
      if other = member then changed.held else (cluster.members other).held := by
  by_cases isMember : other = member
  · rw [isMember, Function.update_self, if_pos rfl]
  · rw [Function.update_of_ne isMember, if_neg isMember]

/-- A step of a compute node after which it holds what it held. -/
theorem Consistent.setMember (consistent : Consistent cluster) (member : Nat) {changed : ComputeMember}
    (sameHeld : changed.held = (cluster.members member).held) (run : changed.run.Reached) :
    Consistent (cluster.setMember member changed) := by
  have held : (fun other => ((cluster.setMember member changed).members other).held) =
      fun other => (cluster.members other).held := by
    funext other
    change (Function.update cluster.members member changed other).held = _
    rw [held_update]
    by_cases isMember : other = member
    · rw [if_pos isMember, sameHeld, isMember]
    · rw [if_neg isMember]
  constructor
  case numbered => exact consistent.numbered
  case granted =>
    intro other seg isHeld
    rw [congrFun held other] at isHeld
    exact consistent.granted other seg isHeld
  case separate =>
    rw [held]
    exact consistent.separate
  case runs =>
    intro other
    change (Function.update cluster.members member changed other).run.Reached
    by_cases isMember : other = member
    · rw [isMember, Function.update_self]
      exact run
    · rw [Function.update_of_ne isMember]
      exact consistent.runs other

/-- A segment that is free is apart from all that are held. -/
theorem Consistent.free_apart (consistent : Consistent cluster) (isNode : node ∈ cluster.memoryNodes) {no : Nat}
    (inside : no < node.allocator.bitmap.bytes * 8) (isFree : node.allocator.bitmap.isSet no = false)
    (member : Nat) {seg : Nat} (isHeld : seg ∈ (cluster.members member).held) :
    AllocatorRun.SegmentsApart (node.pointerTo no).toNat seg := by
  obtain ⟨other, isOther, otherNo, otherInside, isSet, isSeg⟩ := consistent.granted member seg isHeld
  rw [isSeg]
  apply MemoryNode.pointers_apart (consistent.numbered.inRange node isNode) inside
    (consistent.numbered.inRange other isOther) otherInside
  intro isId
  have same := consistent.numbered.same isNode isOther isId
  refine ⟨same, fun sameSegment => ?_⟩
  rw [same, sameSegment, isSet] at isFree
  cases isFree

theorem Consistent.serve (consistent : Consistent cluster) (member : Nat)
    (isAsked : (cluster.members member).offer = .asked place) (isNode : cluster.memoryNodes[place]? = some node) :
    Consistent (cluster.serve member place node) := by
  have inNodes : node ∈ cluster.memoryNodes := List.mem_of_getElem? isNode
  have numbered := consistent.numbered.served isNode
  have before : (cluster.members member).held = (cluster.members member).run.segments.map Segment.seg := by
    unfold ComputeMember.held
    rw [isAsked]
    rfl
  have others : ∀ other, other ≠ member →
      ((cluster.serve member place node).members other).held = (cluster.members other).held := by
    intro other isOther
    change (Function.update cluster.members member _ other).held = _
    rw [held_update, if_neg isOther]
  have runs : ∀ other, ((cluster.serve member place node).members other).run.Reached := by
    intro other
    change (Function.update cluster.members member _ other).run.Reached
    by_cases isMember : other = member
    · rw [isMember, Function.update_self]
      exact consistent.runs member
    · rw [Function.update_of_ne isMember]
      exact consistent.runs other
  have after : ((cluster.serve member place node).members member).held =
      (Offer.answered node.allocationHandler.1).pending ++ (cluster.members member).held := by
    change (Function.update cluster.members member _ member).held = _
    rw [held_update, if_pos rfl, before]
    rfl
  rcases node.allocationHandler_sets with ⟨no, inside, isFree, reply, isSet, _⟩ | ⟨null, _⟩
  · have pending : (Offer.answered node.allocationHandler.1).pending = [(node.pointerTo no).toNat] := by
      rw [reply, Offer.pending_answered, node.isNullptr_pointerTo inside, if_neg Bool.false_ne_true]
    rw [pending] at after
    refine ⟨numbered, fun other seg isHeld => ?_, ?_, runs⟩
    · have old : ∀ holder, seg ∈ (cluster.members holder).held →
          Granted (cluster.serve member place node).memoryNodes seg :=
        fun holder wasHeld => (consistent.granted holder seg wasHeld).served isNode
      by_cases isMember : other = member
      · rw [isMember, after] at isHeld
        rcases List.mem_cons.mp isHeld with isNew | wasHeld
        · refine ⟨node.allocationHandler.2, List.mem_set (List.getElem?_eq_some_iff.mp isNode).1 _, no, ?_, isSet, ?_⟩
          · rw [node.allocationHandler_region.2]
            exact inside
          · rw [node.pointerTo_allocationHandler]
            exact isNew
        · exact old member wasHeld
      · rw [others other isMember] at isHeld
        exact old other isHeld
    · exact consistent.separate.add Or.symm member
        (fun other seg isHeld => consistent.free_apart inNodes inside isFree other isHeld) after others
  · have pending : (Offer.answered node.allocationHandler.1).pending = [] := by
      rw [Offer.pending_answered, null, if_pos rfl]
    rw [pending] at after
    have same : ∀ other, ((cluster.serve member place node).members other).held =
        (cluster.members other).held := by
      intro other
      by_cases isMember : other = member
      · rw [isMember]
        exact after
      · exact others other isMember
    refine ⟨numbered, fun other seg isHeld => ?_, ?_, runs⟩
    · rw [same other] at isHeld
      exact (consistent.granted other seg isHeld).served isNode
    · rw [funext same]
      exact consistent.separate

/-- Every step keeps the segments apart, whichever compute node or memory node takes it. -/
theorem Consistent.step (consistent : Consistent cluster) (step : Step cluster next) : Consistent next := by
  cases step with
  | call member step =>
    apply consistent.setMember
    · unfold ComputeMember.held
      rw [step.sameSegments]
    · exact (consistent.runs member).step step.toStep
  | ask member isFree =>
    apply consistent.setMember
    · unfold ComputeMember.held
      rw [isFree]
      rfl
    · exact consistent.runs member
  | serve member place node isAsked isNode => exact consistent.serve member isAsked isNode
  | receive member remote isAnswered notNull _ =>
    -- the response becomes the current segment, which is what the list of the held ones says already
    have pending : (cluster.members member).offer.pending = [remote.toNat] := by
      rw [isAnswered, Offer.pending_answered, notNull, if_neg Bool.false_ne_true]
    have isHeld : (cluster.members member).held =
        remote.toNat :: (cluster.members member).run.segments.map Segment.seg := by
      unfold ComputeMember.held
      rw [pending]
      rfl
    have apart := consistent.separate.own member
    rw [isHeld] at apart
    apply consistent.setMember
    · rw [isHeld]
      rfl
    · refine (consistent.runs member).step (.applyForMemory remote.toNat fun segment isMember => ?_)
      exact (List.pairwise_cons.mp apart).1 segment.seg (List.mem_map_of_mem isMember)

theorem Reached.consistent (reached : Reached cluster) : Consistent cluster := by
  induction reached with
  | start memoryNodes numbered => exact consistent_start numbered
  | step _ step inductionHypothesis => exact inductionHypothesis.step step

/-! ### Chunks of the cluster -/

/-- No byte of remote memory is in two chunks, whoever allocated them, and the bytes of a chunk are
bytes of a segment that the memory node they are sent to has granted. -/
structure ChunksOwned (cluster : SegmentCluster) : Prop where
  apart : Separate (fun left right : Chunk => ∀ address, left.Covers address → ¬ right.Covers address)
    fun member => (cluster.members member).run.returned
  inGranted : ∀ member, ∀ chunk ∈ (cluster.members member).run.returned, ∃ node ∈ cluster.memoryNodes,
    ∃ no < node.allocator.bitmap.bytes * 8, node.allocator.bitmap.isSet no = true ∧
      ∀ address, chunk.Covers address →
        TaggedPointer.getNode (BitVec.ofNat 64 address) = node.nodeId.toNat ∧
        node.allocator.segmentAt no + memoryPageSize ≤ address % 2 ^ 48 ∧
        address % 2 ^ 48 < node.allocator.segmentAt no + segmentSize

/-- A chunk lies in one of the segments its compute node holds. -/
theorem Consistent.chunk_inside (consistent : Consistent cluster) {member : Nat} {chunk : Chunk}
    (isReturned : chunk ∈ (cluster.members member).run.returned) :
    ∃ seg ∈ (cluster.members member).held, ∀ address, chunk.Covers address →
      seg + memoryPageSize ≤ address ∧ address < seg + segmentSize := by
  have disciplined := (consistent.runs member).disciplined
  obtain ⟨base, ⟨segment, isMember, offered⟩, inPage⟩ := disciplined.placed chunk isReturned
  refine ⟨segment.seg, List.mem_append_right _ (List.mem_map_of_mem isMember), fun address covers => ?_⟩
  exact offered.inside (disciplined.counted segment isMember) (inPage address covers)

/-- Every byte of a chunk is a byte of a segment that one of the memory nodes has granted: the tag of
the pointer is the node, and the rest the address. -/
theorem Consistent.chunk_granted (consistent : Consistent cluster) {member : Nat} {chunk : Chunk}
    (isReturned : chunk ∈ (cluster.members member).run.returned) :
    ∃ node ∈ cluster.memoryNodes, ∃ no < node.allocator.bitmap.bytes * 8, node.allocator.bitmap.isSet no = true ∧
      ∀ address, chunk.Covers address → ∃ offset, memoryPageSize ≤ offset ∧ offset < segmentSize ∧
        address = (128 + node.nodeId.toNat) * 2 ^ 56 + (node.allocator.segmentAt no + offset) := by
  obtain ⟨seg, isHeld, inside⟩ := consistent.chunk_inside isReturned
  obtain ⟨node, isNode, no, inMap, isSet, isSeg⟩ := consistent.granted member seg isHeld
  rw [MemoryNode.toNat_pointerTo (consistent.numbered.inRange node isNode) inMap] at isSeg
  refine ⟨node, isNode, no, inMap, isSet, fun address covers => ⟨address - seg, ?_⟩⟩
  have := inside address covers
  omega

/-- A memory node of eight segments, and the node after its first grant. -/
def freshNode : MemoryNode := NodeMemory.eightSegments 0 0

def onceGranted : MemoryNode := freshNode.allocationHandler.2

/-- Two compute nodes ask, the second is served first, and both have their segments. -/
def twoReceived : SegmentCluster :=
  let asked := ((start [freshNode]).ask 0).ask 1
  let served := (asked.serve 1 0 freshNode).serve 0 0 onceGranted
  (served.receive 1 freshNode.allocationHandler.1).receive 0 onceGranted.allocationHandler.1

/-- A phase of a call of one member. -/
def called (cluster : SegmentCluster) (member : Nat) (phase : AllocatorRun → AllocatorRun) : SegmentCluster :=
  cluster.setMember member { cluster.members member with run := phase (cluster.members member).run }

/-- Thread 0 of each allocates 100 bytes, phase by phase. -/
def twoPrepared : SegmentCluster :=
  let registered := (twoReceived.called 0 (·.register 0 100)).called 1 (·.register 0 100)
  (registered.called 0 (·.prepare 0 .chunk128)).called 1 (·.prepare 0 .chunk128)

def twoAllocated : SegmentCluster :=
  (twoPrepared.called 1 (·.take 0 .chunk128)).called 0 (·.take 0 .chunk128)

theorem numbered_freshNode : Numbered [freshNode] where
  distinct left right node other isNode isOther _ := by
    have leftInside := (List.getElem?_eq_some_iff.mp isNode).1
    have rightInside := (List.getElem?_eq_some_iff.mp isOther).1
    rw [List.length_singleton] at leftInside rightInside
    omega
  inRange node isMember := by
    rw [List.mem_singleton.mp isMember]
    decide

theorem reached_twoReceived : Reached twoReceived := by
  have asked : Reached ((start [freshNode]).ask 0) := (Reached.start _ numbered_freshNode).step (.ask 0 rfl)
  have bothAsked := asked.step (.ask 1 (by decide))
  have served := bothAsked.step (.serve 1 0 freshNode (by decide) rfl)
  have bothServed := served.step (.serve 0 0 onceGranted (by decide) rfl)
  have received := bothServed.step (.receive 1 freshNode.allocationHandler.1 rfl (by decide +kernel) (by decide +kernel))
  exact received.step (.receive 0 onceGranted.allocationHandler.1 rfl (by decide +kernel) (by decide +kernel))

theorem reached_twoAllocated : Reached twoAllocated := by
  have registered := reached_twoReceived.step (.call 0 (.register 0 100 rfl (by decide) (by decide)))
  have bothRegistered := registered.step (.call 1 (.register 0 100 rfl (by decide) (by decide)))
  have prepared := bothRegistered.step (.call 0 (.prepare 0 .chunk128 (by decide +kernel)))
  have bothPrepared := prepared.step (.call 1 (.prepare 0 .chunk128 (by decide +kernel)))
  have taken := bothPrepared.step (.call 1 (.take 0 .chunk128 (by decide +kernel)))
  exact taken.step (.call 0 (.take 0 .chunk128 (by decide +kernel)))

end SegmentCluster

end DiStore.Memory
