import DiStore.Memory.MemoryNodeAllocator
import DiStore.Memory.PointerArithmetic
import DiStore.Memory.Refills

/-!
Contract: segments from several memory nodes.

Owns: `MemoryNode::allocation_handler`, `offer_remote_segment` with its nested call,
`get_base_addr`, `ComputeNode::allocate` over them, and when the fallback to another node works.

Does not own: the connections, `recycle_remote_segment`, and the page numbers, which alone are
computed from a base address. The server of a memory node is the node itself.
-/

set_option autoImplicit false

namespace DiStore.Memory

open DiStore.Concurrency

/-! ### Memory nodes -/

/-- A memory node with its region. User space ends below bit 47. -/
structure MemoryNode where
  nodeId : BitVec 64
  allocator : MemoryNodeAllocator
  inUserSpace : allocator.region + memoryPageSize + allocator.bitmap.bytes * 8 * segmentSize < 2 ^ 47

/-- `allocate` takes the lowest free segment, or finds none. -/
theorem MemoryNodeAllocator.allocate_cases (allocator : MemoryNodeAllocator) :
    (∃ no after, allocator.allocate = (some (allocator.segmentAt no), after) ∧
      no < allocator.bitmap.bytes * 8 ∧ allocator.bitmap.isSet no = false ∧
      after.region = allocator.region ∧ after.bitmap.bytes = allocator.bitmap.bytes ∧
      ∀ pos, after.bitmap.isSet pos = (allocator.bitmap.isSet pos || pos == no)) ∨
    ((∀ no < allocator.bitmap.bytes * 8, allocator.bitmap.isSet no = true) ∧
      allocator.allocate = (none, allocator)) := by
  unfold MemoryNodeAllocator.allocate
  rcases Bitmap.getEmpty_cases allocator.bitmap with ⟨no, bitmap, found, bytes, inside, clear, _, sets⟩ | ⟨full, found⟩
  · rw [found]
    exact Or.inl ⟨no, _, rfl, inside, clear, rfl, bytes, sets⟩
  · rw [found]
    exact Or.inr ⟨full, rfl⟩

namespace MemoryNode

variable (node : MemoryNode)

/-- Some segment is not granted. -/
def HasFree : Prop := ∃ no < node.allocator.bitmap.bytes * 8, node.allocator.bitmap.isSet no = false

instance : Decidable node.HasFree := by
  unfold HasFree
  infer_instance

theorem allocate_inUserSpace : node.allocator.allocate.2.region + memoryPageSize +
    node.allocator.allocate.2.bitmap.bytes * 8 * segmentSize < 2 ^ 47 := by
  rcases node.allocator.allocate_cases with ⟨_, after, allocated, _, _, region, bytes, _⟩ | ⟨_, allocated⟩
  · rw [allocated, region, bytes]
    exact node.inUserSpace
  · rw [allocated]
    exact node.inUserSpace

/-- `allocation_handler`: the pointer in the response. -/
def allocationHandler : TaggedPointer × MemoryNode :=
  (.makeRemotePointer node.nodeId (BitVec.ofNat 64 (node.allocator.allocate.1.getD 0)),
    ⟨node.nodeId, node.allocator.allocate.2, node.allocate_inUserSpace⟩)

/-- The pointer to segment `no`. -/
def pointerTo (no : Nat) : TaggedPointer :=
  .makeRemotePointer node.nodeId (BitVec.ofNat 64 (node.allocator.segmentAt no))

/-- `remote` is a segment of the node that was free and is set afterwards. -/
def Grants (after : MemoryNode) (remote : TaggedPointer) : Prop :=
  ∃ no < node.allocator.bitmap.bytes * 8, node.allocator.bitmap.isSet no = false ∧
    after.allocator.bitmap.isSet no = true ∧ remote = node.pointerTo no

theorem isNullptr_pointerTo {no : Nat} (inside : no < node.allocator.bitmap.bytes * 8) :
    (node.pointerTo no).isNullptr = false := by
  have below := Nat.add_le_add_left (Nat.mul_le_mul_right segmentSize inside.le)
    (node.allocator.region + memoryPageSize)
  have small : (2 : Nat) ^ 47 ≤ 2 ^ 48 := Nat.pow_le_pow_right (by decide) (by decide)
  have inProcess : node.allocator.segmentAt no < 2 ^ 48 := (below.trans_lt node.inUserSpace).trans_le small
  have header : 0 < memoryPageSize := by decide
  have positive : node.allocator.segmentAt no ≠ 0 := by
    unfold MemoryNodeAllocator.segmentAt
    omega
  unfold pointerTo
  rw [TaggedPointer.isNullptr_of_address _ inProcess]
  exact beq_eq_false_iff_ne.mpr positive

theorem allocationHandler_fst : node.allocationHandler.1 =
    .makeRemotePointer node.nodeId (BitVec.ofNat 64 (node.allocator.allocate.1.getD 0)) := rfl

theorem allocationHandler_allocator : node.allocationHandler.2.allocator = node.allocator.allocate.2 := rfl

/-- A node with a free segment grants it, and one without answers null. -/
theorem allocationHandler_cases :
    (node.HasFree ∧ node.allocationHandler.1.isNullptr = false ∧
      node.Grants node.allocationHandler.2 node.allocationHandler.1) ∨
    (¬ node.HasFree ∧ node.allocationHandler.1.isNullptr = true ∧ node.allocationHandler.2 = node) := by
  rcases node.allocator.allocate_cases with ⟨no, after, allocated, inside, clear, _, _, sets⟩ | ⟨full, allocated⟩
  · have reply : node.allocationHandler.1 = node.pointerTo no := by
      rw [allocationHandler_fst, congrArg Prod.fst allocated, Option.getD_some, pointerTo]
    refine Or.inl ⟨⟨no, inside, clear⟩, ?_, no, inside, clear, ?_, reply⟩
    · rw [reply]
      exact node.isNullptr_pointerTo inside
    · rw [allocationHandler_allocator, congrArg Prod.snd allocated, sets, beq_self_eq_true, Bool.or_true]
  · refine Or.inr ⟨?_, ?_, ?_⟩
    · rintro ⟨no, inside, clear⟩
      rw [full no inside] at clear
      cases clear
    · rw [allocationHandler_fst, congrArg Prod.fst allocated, Option.getD_none,
        TaggedPointer.isNullptr_of_address _ (Nat.two_pow_pos 48)]
      exact beq_self_eq_true 0
    · obtain ⟨nodeId, allocator, inUserSpace⟩ := node
      unfold allocationHandler
      simp only [allocated]

end MemoryNode

/-! ### Requests -/

/-- The memory nodes as the manager lists them; `granted` records the segments it was given. -/
structure RemoteMemoryManager where
  current : BitVec 32
  memoryNodes : List MemoryNode
  nonEmpty : memoryNodes ≠ []
  granted : List TaggedPointer

namespace RemoteMemoryManager

variable (manager : RemoteMemoryManager)

/-- `current % memory_nodes.size()`, where the `int` becomes a `size_t`. -/
def place : Fin manager.memoryNodes.length :=
  ⟨(manager.current.signExtend 64).toNat % manager.memoryNodes.length,
    Nat.mod_lt _ (List.length_pos_of_ne_nil manager.nonEmpty)⟩

/-- The node the next request goes to. -/
def chosen : MemoryNode := manager.memoryNodes.get manager.place

/-- One request and its response. -/
def request : TaggedPointer × RemoteMemoryManager :=
  let (remote, node) := manager.chosen.allocationHandler
  (remote,
    { current := manager.current + 1
      memoryNodes := manager.memoryNodes.set manager.place node
      nonEmpty := by
        intro isEmpty
        exact manager.nonEmpty ((List.set_eq_nil_iff _ _).mp isEmpty)
      granted := if remote.isNullptr then manager.granted else remote :: manager.granted })

/-- `offer_remote_segment`, with as many requests as `fuel` allows. The result of the nested
call is dropped. -/
def offerRemoteSegment : Nat → RemoteMemoryManager → Option (TaggedPointer × RemoteMemoryManager)
  | 0, _ => none
  | fuel + 1, manager =>
      let (remote, manager) := manager.request
      if remote.isNullptr then (offerRemoteSegment fuel manager).map fun nested => (remote, nested.2)
      else some (remote, manager)

/-- `get_base_addr`: an id from a pointer is used as an index of `memory_nodes`, unchecked. A node
sends the address behind its header page. -/
def getBaseAddr (nodeId : Nat) : Option TaggedPointer :=
  manager.memoryNodes[nodeId]?.map fun node =>
    .makeRemotePointer node.nodeId (BitVec.ofNat 64 (node.allocator.region + memoryPageSize))

/-- The id that the next response carries, six bits of it, is an index of `memory_nodes`. -/
def IdIsIndex : Prop := manager.chosen.nodeId.toNat % 64 < manager.memoryNodes.length

instance : Decidable manager.IdIsIndex := by
  unfold IdIsIndex
  infer_instance

/-- Some node has a free segment. -/
def AnyFree : Prop := ∃ node ∈ manager.memoryNodes, node.HasFree

/-- `remote` is a segment that one of the nodes gave away between the two states. -/
def Grants (after : RemoteMemoryManager) (remote : TaggedPointer) : Prop :=
  ∃ place : Nat, ∃ node node' : MemoryNode, manager.memoryNodes[place]? = some node ∧
    after.memoryNodes[place]? = some node' ∧ node.Grants node' remote

/-- Finitely many requests, and a segment exactly if there is one. -/
def OfferFallsBack : Prop :=
  ∃ fuel remote after, offerRemoteSegment fuel manager = some (remote, after) ∧
    ((remote.isNullptr = false ∧ manager.Grants after remote) ↔ manager.AnyFree)

variable {manager} {fuel : Nat} {remote : TaggedPointer} {after : RemoteMemoryManager}

theorem chosen_mem : manager.chosen ∈ manager.memoryNodes := List.get_mem _ _

/-- A node without a free segment is left as it was. -/
theorem request_of_full (full : ¬ manager.chosen.HasFree) :
    manager.request.1.isNullptr = true ∧ manager.request.2.memoryNodes = manager.memoryNodes := by
  rcases manager.chosen.allocationHandler_cases with ⟨free, _, _⟩ | ⟨_, null, same⟩
  · exact absurd free full
  · refine ⟨null, ?_⟩
    change manager.memoryNodes.set manager.place manager.chosen.allocationHandler.2 = manager.memoryNodes
    rw [same]
    exact List.set_getElem_self _

theorem request_of_free (free : manager.chosen.HasFree) :
    manager.request.1.isNullptr = false ∧ manager.Grants manager.request.2 manager.request.1 ∧
      manager.request.2.granted = manager.request.1 :: manager.granted := by
  rcases manager.chosen.allocationHandler_cases with ⟨_, notNull, grants⟩ | ⟨full, _, _⟩
  · refine ⟨notNull, ⟨manager.place, manager.chosen, _, ?_, ?_, grants⟩, ?_⟩
    · exact List.getElem?_eq_getElem manager.place.isLt
    · exact List.getElem?_set_self manager.place.isLt
    · change (if manager.chosen.allocationHandler.1.isNullptr = true then _ else _) = _
      rw [notNull, if_neg Bool.false_ne_true]
      rfl
  · exact absurd free full

/-- Whatever the nested calls find, the first response is returned. -/
theorem offer_remote (offered : offerRemoteSegment fuel manager = some (remote, after)) :
    remote = manager.request.1 := by
  cases fuel with
  | zero => cases offered
  | succ fuel =>
    simp only [offerRemoteSegment] at offered
    by_cases null : manager.request.1.isNullptr = true
    · rw [if_pos null] at offered
      obtain ⟨nested, _, same⟩ := Option.map_eq_some_iff.mp offered
      exact (congrArg Prod.fst same).symm
    · rw [if_neg null] at offered
      exact (congrArg Prod.fst (Option.some.inj offered)).symm

/-- Without a free segment on any node the requests never end. -/
theorem anyFree_of_offer (offered : offerRemoteSegment fuel manager = some (remote, after)) :
    manager.AnyFree := by
  induction fuel generalizing manager remote after with
  | zero => cases offered
  | succ fuel ih =>
    by_cases free : manager.chosen.HasFree
    · exact ⟨_, chosen_mem, free⟩
    · obtain ⟨null, same⟩ := request_of_full free
      simp only [offerRemoteSegment] at offered
      rw [if_pos null] at offered
      obtain ⟨nested, nestedOffered, _⟩ := Option.map_eq_some_iff.mp offered
      have later := ih nestedOffered
      unfold AnyFree at later
      rw [same] at later
      exact later

theorem offer_of_free (free : manager.chosen.HasFree) :
    offerRemoteSegment 1 manager = some manager.request := by
  simp only [offerRemoteSegment]
  rw [(request_of_free free).1, if_neg Bool.false_ne_true]

theorem getBaseAddr_isSome (nodeId : Nat) :
    (manager.getBaseAddr nodeId).isSome = true ↔ nodeId < manager.memoryNodes.length := by
  unfold getBaseAddr
  rw [Option.isSome_map, isSome_getElem?]

theorem length_request (manager : RemoteMemoryManager) :
    manager.request.2.memoryNodes.length = manager.memoryNodes.length := List.length_set

/-- Every response of a node carries its id, a null one too. -/
theorem getNode_request (manager : RemoteMemoryManager) :
    manager.request.1.getNode = manager.chosen.nodeId.toNat % 64 :=
  TaggedPointer.getNode_make _ _

/-- The base address is read within `memory_nodes` exactly if the id is an index. -/
theorem getBaseAddr_request (manager : RemoteMemoryManager) :
    (manager.request.2.getBaseAddr manager.request.1.getNode).isSome = true ↔ manager.IdIsIndex := by
  rw [getBaseAddr_isSome, length_request, getNode_request]
  rfl

theorem offer_falls_back (manager : RemoteMemoryManager) :
    manager.OfferFallsBack ↔ manager.chosen.HasFree := by
  constructor
  · rintro ⟨fuel, remote, after, offered, exactly⟩
    by_contra full
    have notNull := (exactly.mpr (anyFree_of_offer offered)).1
    rw [offer_remote offered, (request_of_full full).1] at notNull
    cases notNull
  · intro free
    obtain ⟨notNull, grants, _⟩ := request_of_free free
    exact ⟨1, _, _, offer_of_free free, iff_of_true ⟨notNull, grants⟩ ⟨_, chosen_mem, free⟩⟩

end RemoteMemoryManager

/-! ### Pages in granted segments -/

variable {granted : List TaggedPointer} {group result : PageGroup} {segment rest : Segment} {page : PageMirror}
variable {allocationClass : AllocationClass} {base : Nat}

/-- The page at `base` lies in a granted segment, behind its first page. -/
def PageGranted (granted : List TaggedPointer) (base : Nat) : Prop :=
  ∃ seg ∈ granted, ∃ place, 1 ≤ place ∧ place < segmentSize / memoryPageSize ∧
    base = seg.toNat + place * memoryPageSize

/-- A chunk of `size` bytes lies in a granted segment. -/
def ChunkGranted (granted : List TaggedPointer) (chunk size : Nat) : Prop :=
  ∃ seg ∈ granted, seg.toNat ≤ chunk ∧ chunk + size ≤ seg.toNat + segmentSize

theorem PageGranted.chunk (pageGranted : PageGranted granted base) {chunk size : Nat} (above : base ≤ chunk)
    (below : chunk + size ≤ base + memoryPageSize) : ChunkGranted granted chunk size := by
  obtain ⟨seg, isGranted, place, _, inside, isBase⟩ := pageGranted
  have whole : segmentSize / memoryPageSize * memoryPageSize = segmentSize := by decide
  have upper := Nat.mul_le_mul_right memoryPageSize (show place + 1 ≤ segmentSize / memoryPageSize from inside)
  rw [whole, Nat.add_mul, Nat.one_mul] at upper
  exact ⟨seg, isGranted, by omega, by omega⟩

/-- What the allocator holds lies in granted segments. -/
structure ComputeNodeAllocator.InGranted (allocator : ComputeNodeAllocator) (granted : List TaggedPointer) :
    Prop where
  current : ∀ segment, allocator.current = some segment →
    (∃ seg ∈ granted, segment.seg = seg.toNat) ∧ segment.Counted
  groups : ∀ thread group, allocator.threadInfo thread = some group →
    group.length = pageGroupNo ∧ ∀ page ∈ group, PageGranted granted page.pageBase
  /-- Finitely many threads have called. -/
  callers : ∃ bound, ∀ thread, bound ≤ thread → allocator.threadInfo thread = none

namespace ComputeNodeAllocator

variable {allocator next : ComputeNodeAllocator} {thread : ThreadId} {size : Nat}

theorem inGranted_empty (granted : List TaggedPointer) : empty.InGranted granted where
  current _ isCurrent := by cases isCurrent
  groups _ _ isGroup := by cases isGroup
  callers := ⟨0, fun _ _ => rfl⟩

theorem InGranted.mono {more : List TaggedPointer} (inGranted : allocator.InGranted granted)
    (within : granted ⊆ more) : allocator.InGranted more where
  current segment isCurrent := by
    obtain ⟨⟨seg, isGranted, isSeg⟩, counted⟩ := inGranted.current segment isCurrent
    exact ⟨⟨seg, within isGranted, isSeg⟩, counted⟩
  groups thread group isGroup := by
    obtain ⟨length, pages⟩ := inGranted.groups thread group isGroup
    refine ⟨length, fun page isMember => ?_⟩
    obtain ⟨seg, isGranted, place⟩ := pages page isMember
    exact ⟨seg, within isGranted, place⟩
  callers := inGranted.callers

theorem InGranted.setGroup (inGranted : allocator.InGranted granted) (thread : ThreadId)
    (length : group.length = pageGroupNo) (pages : ∀ page ∈ group, PageGranted granted page.pageBase) :
    (allocator.setGroup thread group).InGranted granted where
  current := inGranted.current
  groups other otherGroup isGroup := by
    by_cases same : other = thread
    · subst same
      change Function.update allocator.threadInfo other (some group) other = _ at isGroup
      rw [Function.update_self] at isGroup
      rw [← Option.some.inj isGroup]
      exact ⟨length, pages⟩
    · change Function.update allocator.threadInfo thread (some group) other = _ at isGroup
      rw [Function.update_of_ne same] at isGroup
      exact inGranted.groups other otherGroup isGroup
  callers := by
    obtain ⟨bound, unknown⟩ := inGranted.callers
    refine ⟨max bound (thread + 1), fun other isBeyond => ?_⟩
    have differs : other ≠ thread := Nat.ne_of_gt ((Nat.le_max_right _ _).trans isBeyond)
    change Function.update allocator.threadInfo thread (some group) other = none
    rw [Function.update_of_ne differs]
    exact unknown other ((Nat.le_max_left _ _).trans isBeyond)

/-- A refilled group holds pages of the current segment. -/
theorem InGranted.install (inGranted : allocator.InGranted granted) (thread : ThreadId)
    (isCurrent : allocator.current = some segment) (length : result.length = pageGroupNo)
    (pages : ∀ page ∈ group, PageGranted granted page.pageBase) (refilled : Refilled group segment result rest) :
    InGranted { allocator.setGroup thread result with current := some rest } granted := by
  obtain ⟨⟨seg, isGranted, isSeg⟩, counted⟩ := inGranted.current segment isCurrent
  have resultPages : ∀ page ∈ result, PageGranted granted page.pageBase := by
    intro page isMember
    rcases refilled.pages page isMember with isOld | ⟨place, low, high, isBase⟩
    · exact pages page isOld
    · refine ⟨seg, isGranted, place, counted.1.trans low, ?_, by rw [isBase, isSeg]⟩
      have total := refilled.total.trans counted.2
      omega
  constructor
  case current =>
    intro other isOther
    rw [← Option.some.inj isOther]
    exact ⟨⟨seg, isGranted, refilled.seg.trans isSeg⟩, counted.refilled refilled⟩
  case groups => exact (inGranted.setGroup thread length resultPages).groups
  case callers => exact (inGranted.setGroup thread length resultPages).callers

theorem InGranted.refill (inGranted : allocator.InGranted granted)
    (refilled : allocator.refill thread = some next) : next.InGranted granted := by
  unfold ComputeNodeAllocator.refill at refilled
  obtain ⟨segment, isSource, isNext⟩ := Option.map_eq_some_iff.mp refilled
  obtain ⟨isCurrent, room⟩ := AllocatorRun.refillSource_some isSource
  rw [← isNext]
  exact inGranted.install thread isCurrent (length_offerPages pageGroupNo segment)
    (fun _ isMember => absurd isMember List.not_mem_nil) (offerPages_refilled pageGroupNo segment room)

theorem InGranted.refillSinglePage (inGranted : allocator.InGranted granted)
    (isGroup : allocator.threadInfo thread = some group)
    (refilled : allocator.refillSinglePage thread group allocationClass = some next) :
    next.InGranted granted := by
  unfold ComputeNodeAllocator.refillSinglePage at refilled
  obtain ⟨segment, isSource, isNext⟩ := Option.map_eq_some_iff.mp refilled
  obtain ⟨isCurrent, room⟩ := AllocatorRun.refillSource_some isSource
  obtain ⟨length, pages⟩ := inGranted.groups thread group isGroup
  rw [← isNext]
  exact inGranted.install thread isCurrent ((length_refillPages _ _ _).trans length) pages
    (refillPages_refilled allocationClass group segment (length ▸ room))

theorem InGranted.register (inGranted : allocator.InGranted granted)
    (registered : allocator.register thread = some next) : next.InGranted granted := by
  unfold ComputeNodeAllocator.register at registered
  split at registered
  next => exact inGranted.refill registered
  next =>
    rw [← Option.some.inj registered]
    exact inGranted

theorem InGranted.prepare (inGranted : allocator.InGranted granted)
    (prepared : allocator.prepare thread allocationClass = some next) : next.InGranted granted := by
  unfold ComputeNodeAllocator.prepare at prepared
  cases hasGroup : allocator.threadInfo thread with
  | none =>
    rw [hasGroup] at prepared
    simp only [Option.getD_none, PageGroup.available, List.any_nil, Bool.false_eq_true, if_false] at prepared
    exact inGranted.refill prepared
  | some group =>
    rw [hasGroup] at prepared
    simp only [Option.getD_some] at prepared
    split at prepared
    next =>
      rw [← Option.some.inj prepared]
      exact inGranted
    next => exact inGranted.refillSinglePage hasGroup prepared
    next => exact inGranted.refill prepared

/-- The class of a size that is not refused. -/
theorem getClass_fits {size : Nat} (positive : 1 ≤ size) (small : size ≤ memoryPageSize) :
    getClass size ≠ .chunkUnknown ∧ size ≤ (getClass size).size := by
  rcases Nat.lt_or_ge 16 size with large | tiny
  · obtain ⟨counted, fits⟩ := getClass_spec large small
    exact ⟨counted.known, fits⟩
  · have check : ∀ size : Fin 17, 1 ≤ size.val →
        getClass size ≠ .chunkUnknown ∧ size.val ≤ (getClass size).size := by
      decide
    exact check ⟨size, Nat.lt_succ_of_le tiny⟩ positive

/-- A chunk lies in its page, whatever the page counted before. -/
theorem takeChunk_inPage (known : allocationClass ≠ .chunkUnknown)
    (usable : PageGroup.usable allocationClass page = true) :
    (PageGroup.takeChunk allocationClass page).2.pageBase = page.pageBase ∧
      page.pageBase ≤ (PageGroup.takeChunk allocationClass page).1 ∧
      (PageGroup.takeChunk allocationClass page).1 + allocationClass.size ≤ page.pageBase + memoryPageSize := by
  have inside := Nat.div_mul_le_self memoryPageSize allocationClass.size
  by_cases isClass : page.allocationClass = allocationClass
  · have bound : page.offset.toNat < memoryPageSize / allocationClass.size := by
      simpa [PageGroup.usable, isClass, known, PageMirror.available] using usable
    have last := Nat.mul_le_mul_right allocationClass.size (show page.offset.toNat + 1 ≤ _ from bound)
    rw [Nat.succ_mul] at last
    unfold PageGroup.takeChunk PageMirror.allocate
    rw [if_pos isClass, isClass]
    exact ⟨rfl, Nat.le_add_right _ _, by simp only; omega⟩
  · have fits : allocationClass.size ≤ memoryPageSize := by
      cases allocationClass <;> decide
    unfold PageGroup.takeChunk PageMirror.allocate PageMirror.descInitialize
    rw [if_neg isClass]
    simp only [UInt8.toNat_zero, Nat.zero_mul, Nat.add_zero]
    exact ⟨trivial, Nat.le_refl _, Nat.add_le_add_left fits _⟩

theorem InGranted.allocateFrom (inGranted : allocator.InGranted granted) (thread : ThreadId)
    (known : allocationClass ≠ .chunkUnknown) :
    (allocator.allocateFrom thread allocationClass).2.InGranted granted ∧
      ∀ chunk, (allocator.allocateFrom thread allocationClass).1 = some chunk →
        ChunkGranted granted chunk allocationClass.size := by
  unfold ComputeNodeAllocator.allocateFrom
  cases hasGroup : allocator.threadInfo thread with
  | none => exact ⟨inGranted, fun _ isChunk => (nomatch isChunk)⟩
  | some group =>
    obtain ⟨length, pages⟩ := inGranted.groups thread group hasGroup
    cases ok : group.any (PageGroup.usable allocationClass) with
    | false =>
      simp only [AllocatorRun.allocate_group_none ok]
      exact ⟨inGranted.setGroup thread length pages, fun _ isChunk => (nomatch isChunk)⟩
    | true =>
      obtain ⟨before, page, after, isGroup, usable, taken⟩ := allocate_group_spec ok
      obtain ⟨sameBase, above, below⟩ := takeChunk_inPage known usable
      have pageGranted : PageGranted granted page.pageBase := pages page (by rw [isGroup]; simp)
      simp only [taken]
      refine ⟨inGranted.setGroup thread ?_ ?_, fun chunk isChunk => ?_⟩
      · rw [isGroup] at length
        simpa using length
      · intro other isMember
        rcases List.mem_append.mp isMember with inBefore | inRest
        · exact pages other (by rw [isGroup]; exact List.mem_append_left _ inBefore)
        · rcases List.mem_cons.mp inRest with isTaken | inAfter
          · rw [isTaken, sameBase]
            exact pageGranted
          · exact pages other (by rw [isGroup]; simp [inAfter])
      · rw [← Option.some.inj isChunk]
        exact pageGranted.chunk above below

/-- Every chunk lies in a granted segment. -/
theorem InGranted.allocate (inGranted : allocator.InGranted granted) (thread : ThreadId) (positive : 1 ≤ size)
    (small : size ≤ memoryPageSize) :
    (allocator.allocate thread size).2.InGranted granted ∧
      ∀ chunk, (allocator.allocate thread size).1 = some chunk → ChunkGranted granted chunk size := by
  obtain ⟨known, fits⟩ := getClass_fits positive small
  rw [allocate_eq_phases]
  cases registered : allocator.register thread with
  | none => exact ⟨inGranted, fun _ isChunk => (nomatch isChunk)⟩
  | some first =>
    have firstGranted := inGranted.register registered
    simp only
    cases prepared : first.prepare thread (getClass size) with
    | none => exact ⟨firstGranted, fun _ isChunk => (nomatch isChunk)⟩
    | some second =>
      obtain ⟨keeps, chunks⟩ := (firstGranted.prepare prepared).allocateFrom thread known
      refine ⟨keeps, fun chunk isChunk => ?_⟩
      obtain ⟨seg, isGranted, above, below⟩ := chunks chunk isChunk
      exact ⟨seg, isGranted, above, (Nat.add_le_add_left fits _).trans below⟩

end ComputeNodeAllocator

/-! ### The node's own allocation -/

/-- The local allocator and the memory nodes behind it. -/
structure NodeMemory where
  allocator : ComputeNodeAllocator
  manager : RemoteMemoryManager

namespace NodeMemory

/-- The allocator holds nothing but granted segments. -/
def Owned (memory : NodeMemory) : Prop := memory.allocator.InGranted memory.manager.granted

/-- `offer_remote_segment`, `get_base_addr` and `apply_for_memory`; none also where the index is out
of range, which the source does not define. -/
def refillSegment (fuel : Nat) (manager : RemoteMemoryManager) (allocator : ComputeNodeAllocator) :
    Option NodeMemory := do
  let (newSeg, manager) ← manager.offerRemoteSegment fuel
  let _base ← manager.getBaseAddr newSeg.getNode
  return ⟨allocator.applyForMemory newSeg.toNat, manager⟩

/-- `ComputeNode::allocate`, for sizes that are not refused. A chunk is never null. -/
def allocate (fuel : Nat) (memory : NodeMemory) (thread : ThreadId) (size : Nat) :
    Option (Option RemotePointer × NodeMemory) :=
  match memory.allocator.allocate thread size with
  | (some remote, allocator) => some (some remote, { memory with allocator := allocator })
  | (none, allocator) =>
      (refillSegment fuel memory.manager allocator).map fun refilled =>
        let (remote, allocator) := refilled.allocator.allocate thread size
        (remote, { refilled with allocator := allocator })

/-- `preallocate`. -/
def preallocate (fuel : Nat) (memory : NodeMemory) : Option NodeMemory :=
  refillSegment fuel memory.manager memory.allocator

/-- The call returns, with null or with a chunk in a segment some memory node granted. -/
def AllocatesGranted (memory : NodeMemory) (thread : ThreadId) (size : Nat) : Prop :=
  ∃ fuel result after, allocate fuel memory thread size = some (result, after) ∧
    ∀ chunk, result = some chunk → ChunkGranted after.manager.granted chunk size

/-- Any calls so far, of any threads, in which every request that was needed went to a node with a
free segment and an id that is an index, without which no call is done. Other compute nodes change the memory nodes at any time. -/
inductive Reached : NodeMemory → Prop where
  | start (manager : RemoteMemoryManager) : Reached ⟨.empty, { manager with granted := [] }⟩
  | others {memory : NodeMemory} (reached : Reached memory) (memoryNodes : List MemoryNode)
      (nonEmpty : memoryNodes ≠ []) :
      Reached { memory with
        manager := { memory.manager with memoryNodes := memoryNodes, nonEmpty := nonEmpty } }
  | preallocate {memory after : NodeMemory} {fuel : Nat} (reached : Reached memory)
      (free : memory.manager.chosen.HasFree) (done : preallocate fuel memory = some after) : Reached after
  | allocate {memory after : NodeMemory} {fuel size : Nat} {thread : ThreadId} {result : Option RemotePointer}
      (reached : Reached memory) (positive : 1 ≤ size) (small : size ≤ memoryPageSize)
      (free : (memory.allocator.allocate thread size).1 = none → memory.manager.chosen.HasFree)
      (done : allocate fuel memory thread size = some (result, after)) : Reached after

variable {memory after : NodeMemory} {fuel size : Nat} {thread : ThreadId} {result : Option RemotePointer}
variable {manager : RemoteMemoryManager} {allocator : ComputeNodeAllocator}

theorem refillSegment_eq_some (refilled : refillSegment fuel manager allocator = some after) :
    ∃ newSeg later, manager.offerRemoteSegment fuel = some (newSeg, later) ∧
      (later.getBaseAddr newSeg.getNode).isSome = true ∧
      after = ⟨allocator.applyForMemory newSeg.toNat, later⟩ := by
  obtain ⟨⟨newSeg, later⟩, offered, applied⟩ := Option.bind_eq_some_iff.mp refilled
  obtain ⟨base, isBase, isAfter⟩ := Option.bind_eq_some_iff.mp applied
  exact ⟨newSeg, later, offered, Option.isSome_of_mem isBase, (Option.some.inj isAfter).symm⟩

/-- With a free segment and an index for an id, one request is enough. -/
theorem refillSegment_of_free (free : manager.chosen.HasFree) (isIndex : manager.IdIsIndex) :
    refillSegment 1 manager allocator =
      some ⟨allocator.applyForMemory manager.request.1.toNat, manager.request.2⟩ := by
  obtain ⟨base, isBase⟩ := Option.isSome_iff_exists.mp (manager.getBaseAddr_request.mpr isIndex)
  unfold refillSegment
  rw [RemoteMemoryManager.offer_of_free free, Option.bind_eq_bind, Option.bind_some]
  simp only [isBase, Option.bind_eq_bind, Option.bind_some]
  rfl

/-- With a free segment on the chosen node one request is enough, whatever the allowance. -/
theorem offered_of_free {later : RemoteMemoryManager} {remote : TaggedPointer}
    (free : manager.chosen.HasFree) (offered : manager.offerRemoteSegment fuel = some (remote, later)) :
    remote ∈ later.granted ∧ manager.granted ⊆ later.granted := by
  obtain ⟨notNull, _, granted⟩ := RemoteMemoryManager.request_of_free free
  cases fuel with
  | zero => cases offered
  | succ fuel =>
    simp only [RemoteMemoryManager.offerRemoteSegment] at offered
    rw [notNull, if_neg Bool.false_ne_true] at offered
    obtain ⟨isRemote, isLater⟩ := Prod.mk.inj (Option.some.inj offered)
    rw [← isRemote, ← isLater, granted]
    exact ⟨List.mem_cons_self, List.subset_cons_self _ _⟩

theorem inGranted_applyForMemory {seg : TaggedPointer}
    (inGranted : allocator.InGranted granted) (isGranted : seg ∈ granted) :
    (allocator.applyForMemory seg.toNat).InGranted granted where
  current segment isCurrent := by
    rw [← Option.some.inj isCurrent]
    exact ⟨⟨seg, isGranted, rfl⟩, Segment.counted_make seg.toNat⟩
  groups := inGranted.groups
  callers := inGranted.callers

/-- A new segment from the chosen node, for an allocator in granted segments. -/
theorem inGranted_refillSegment (inGranted : allocator.InGranted manager.granted) (free : manager.chosen.HasFree)
    (refilled : refillSegment fuel manager allocator = some after) : after.Owned := by
  obtain ⟨newSeg, later, offered, _, isAfter⟩ := refillSegment_eq_some refilled
  obtain ⟨isGranted, within⟩ := offered_of_free free offered
  rw [isAfter]
  exact inGranted_applyForMemory (inGranted.mono within) isGranted

/-- One call keeps the allocator in granted segments, and its chunk lies in one. -/
theorem Owned.allocate (owned : memory.Owned) (positive : 1 ≤ size) (small : size ≤ memoryPageSize)
    (free : (memory.allocator.allocate thread size).1 = none → memory.manager.chosen.HasFree)
    (done : allocate fuel memory thread size = some (result, after)) :
    after.Owned ∧ ∀ chunk, result = some chunk → ChunkGranted after.manager.granted chunk size := by
  obtain ⟨keeps, chunks⟩ := ComputeNodeAllocator.InGranted.allocate owned thread positive small
  unfold NodeMemory.allocate at done
  cases local' : memory.allocator.allocate thread size with
  | mk chunk allocator =>
    rw [local'] at keeps chunks free done
    cases chunk with
    | some remote =>
      obtain ⟨isResult, isAfter⟩ := Prod.mk.inj (Option.some.inj done)
      rw [← isAfter, ← isResult]
      exact ⟨keeps, chunks⟩
    | none =>
      obtain ⟨refilled, isRefilled, same⟩ := Option.map_eq_some_iff.mp done
      obtain ⟨isResult, isAfter⟩ := Prod.mk.inj same
      have applied := inGranted_refillSegment keeps (free rfl) isRefilled
      rw [← isAfter, ← isResult]
      exact ComputeNodeAllocator.InGranted.allocate applied thread positive small

theorem Reached.owned (reached : Reached memory) : memory.Owned := by
  induction reached with
  | start manager => exact ComputeNodeAllocator.inGranted_empty _
  | others reached memoryNodes nonEmpty ih => exact ih
  | preallocate reached free done ih => exact inGranted_refillSegment ih free done
  | allocate reached positive small free done ih => exact (ih.allocate positive small free done).1

/-- A thread that has not called yet gets nothing of an exhausted segment. -/
theorem allocate_of_exhausted (exhausted : allocator.Exhausted) (unknown : allocator.threadInfo thread = none) :
    allocator.allocate thread size = (none, allocator) := by
  have refused : allocator.register thread = none := by
    unfold ComputeNodeAllocator.register ComputeNodeAllocator.refill
    rw [unknown, ComputeNodeAllocator.refillSource_eq_none.mpr exhausted]
    rfl
  rw [ComputeNodeAllocator.allocate_eq_phases, refused]

/-- A call that has to ask reads the base address by the id in the response. -/
theorem isIndex_of_allocatesGranted (free : memory.manager.chosen.HasFree)
    (allocates : memory.AllocatesGranted thread size)
    (asks : memory.allocator.allocate thread size = (none, memory.allocator)) : memory.manager.IdIsIndex := by
  obtain ⟨fuel, result, after, done, _⟩ := allocates
  unfold NodeMemory.allocate at done
  rw [asks] at done
  obtain ⟨refilled, isRefilled, _⟩ := Option.map_eq_some_iff.mp done
  obtain ⟨newSeg, later, offered, isSome, _⟩ := refillSegment_eq_some isRefilled
  have answered : memory.manager.request = (newSeg, later) := by
    cases fuel with
    | zero => cases offered
    | succ fuel =>
      simp only [RemoteMemoryManager.offerRemoteSegment] at offered
      rw [(RemoteMemoryManager.request_of_free free).1, if_neg Bool.false_ne_true] at offered
      exact Option.some.inj offered
  apply memory.manager.getBaseAddr_request.mp
  rw [answered]
  exact isSome

theorem allocate_returns (free : memory.manager.chosen.HasFree)
    (isIndex : memory.allocator.Exhausted → memory.manager.IdIsIndex) (thread : ThreadId) (size : Nat) :
    ∃ result after, NodeMemory.allocate 1 memory thread size = some (result, after) := by
  unfold NodeMemory.allocate
  cases asks : memory.allocator.allocate thread size with
  | mk chunk allocator =>
    cases chunk with
    | some remote => exact ⟨_, _, rfl⟩
    | none =>
      have exhausted := ComputeNodeAllocator.allocate_eq_none (congrArg Prod.fst asks)
      simp only [refillSegment_of_free free (isIndex exhausted), Option.map_some]
      exact ⟨_, _, rfl⟩

/-- A node of eight segments with the given bits set. -/
def eightSegments (nodeId : BitVec 64) (bits : UInt8) : MemoryNode where
  nodeId := nodeId
  allocator := ⟨2 ^ 46, 1, fun _ => bits⟩
  inUserSpace := by
    change 2 ^ 46 + 4096 + 1 * 8 * 2 ^ 30 < 2 ^ 47
    decide

/-- The first of two nodes is full and the second has seven free segments: the call returns a null
pointer, and the allocation a chunk at address 4096 of the first node. -/
def halfFull : NodeMemory := ⟨.empty, ⟨0, [eightSegments 0 255, eightSegments 1 1], by simp, []⟩⟩

end NodeMemory

end DiStore.Memory
