import DiStore.Concurrency.HandoverLocktable
import DiStore.DataLayer.LinkedNode

/-!
Contract: the allocator of remote chunks on the compute node.

Owns: `PageMirror`, `PageGroup`, `SegmentTracker`, `ComputeNodeAllocator`, and the
retry with one more segment in `ComputeNode::allocate`.

Does not own: `free` (`Memory.AllocatorRun`), nor the page ids and mirror maps
that it reads (`Memory.Mirrors`); no call of put, get, update or scan frees. The
segments a memory node answers with are a parameter (`SegmentSource`).
-/

set_option autoImplicit false

namespace DiStore.Memory

open DiStore.Concurrency

/-- `Constants::MEMORY_PAGE_SIZE`, `SEGMENT_SIZE` and `PAGEGROUP_NO`. -/
def memoryPageSize : Nat := 4096

def segmentSize : Nat := 2 ^ 30

def pageGroupNo : Nat := 8

inductive AllocationClass where
  | chunk16
  | chunk32
  | chunk64
  | chunk128
  | chunk256
  | chunk512
  | chunk1024
  | chunk2048
  | chunk4096
  | chunkUnknown
deriving DecidableEq, Repr

/-- `allocation_class_size_map`; the unknown class has no entry and is never looked up. -/
def AllocationClass.size : AllocationClass → Nat
  | .chunk16 => 16
  | .chunk32 => 32
  | .chunk64 => 64
  | .chunk128 => 128
  | .chunk256 => 256
  | .chunk512 => 512
  | .chunk1024 => 1024
  | .chunk2048 => 2048
  | .chunk4096 => 4096
  | .chunkUnknown => 0

/-- `table[exp]` of `get_class`. -/
def AllocationClass.ofExponent : Nat → AllocationClass
  | 0 => .chunk16
  | 1 => .chunk32
  | 2 => .chunk64
  | 3 => .chunk128
  | 4 => .chunk256
  | 5 => .chunk512
  | 6 => .chunk1024
  | 7 => .chunk2048
  | _ => .chunk4096

/-- `get_class`, for sizes it does not refuse. -/
def getClass (size : Nat) : AllocationClass :=
  let times := (size - 1) / 16 + 1
  let count := times.log2
  .ofExponent (if 2 ^ count < times then count + 1 else count)

/-- A page with its descriptor; `offset` and `empty_slots` are single bytes. -/
structure PageMirror where
  pageBase : Nat
  allocationClass : AllocationClass
  offset : UInt8
  emptySlots : UInt8

namespace PageMirror

/-- A page as `offer_page` hands it out. -/
def cleared (base : Nat) : PageMirror := ⟨base, .chunkUnknown, 0, 0⟩

/-- `desc.initialize`. -/
def descInitialize (page : PageMirror) (allocationClass : AllocationClass) : PageMirror :=
  { page with
    allocationClass := allocationClass
    emptySlots := UInt8.ofNat (memoryPageSize / allocationClass.size)
    offset := 0 }

def available (page : PageMirror) : Bool :=
  page.offset.toNat < memoryPageSize / page.allocationClass.size

def allocate (page : PageMirror) : Nat × PageMirror :=
  (page.pageBase + page.offset.toNat * page.allocationClass.size,
    { page with emptySlots := page.emptySlots - 1, offset := page.offset + 1 })

end PageMirror

abbrev PageGroup := List PageMirror

/-- What `PageGroup::available` reports. -/
inductive MemoryAllocationStatus where
  | ok
  | emptyPage
  | emptyPageGroup
deriving DecidableEq

namespace PageGroup

/-- The test of both loops over the pages of a group. -/
def usable (allocationClass : AllocationClass) (page : PageMirror) : Bool :=
  page.allocationClass == .chunkUnknown || page.allocationClass == allocationClass && page.available

def available (group : PageGroup) (allocationClass : AllocationClass) : MemoryAllocationStatus :=
  if group.any (usable allocationClass) then .ok
  else if group.any fun page => page.allocationClass == allocationClass then .emptyPage
  else .emptyPageGroup

/-- `PageMirror::allocate`, after `desc.initialize` for a page without a class. -/
def takeChunk (allocationClass : AllocationClass) (page : PageMirror) : Nat × PageMirror :=
  (if page.allocationClass = allocationClass then page
    else page.descInitialize allocationClass).allocate

/-- `PageGroup::allocate`: from the first usable page. -/
def allocate (allocationClass : AllocationClass) : PageGroup → Option Nat × PageGroup
  | [] => (none, [])
  | page :: pages =>
      if usable allocationClass page then
        let (chunk, page) := takeChunk allocationClass page
        (some chunk, page :: pages)
      else
        let (chunk, pages) := allocate allocationClass pages
        (chunk, page :: pages)

end PageGroup

structure Segment where
  seg : Nat
  offset : Nat
  availablePages : Nat

/-- `Segment(seg, base)`; the first page is not used. -/
def Segment.make (seg : Nat) : Segment := ⟨seg, 1, segmentSize / memoryPageSize - 1⟩

/-- `offer_page`. -/
def Segment.offerPage (segment : Segment) : PageMirror × Segment :=
  (.cleared (segment.seg + segment.offset * memoryPageSize),
    { segment with availablePages := segment.availablePages - 1, offset := segment.offset + 1 })

/-- The loop of `offer_page_group`. -/
def Segment.offerPages : Nat → Segment → PageGroup × Segment
  | 0, segment => ([], segment)
  | count + 1, segment =>
      let (page, segment) := segment.offerPage
      let (pages, segment) := Segment.offerPages count segment
      (page :: pages, segment)

/-- The loop of `refill_single_page`. -/
def Segment.refillPages (allocationClass : AllocationClass) : PageGroup → Segment → PageGroup × Segment
  | [], segment => ([], segment)
  | page :: pages, segment =>
      if page.allocationClass = allocationClass ∧ page.available = false then
        let (fresh, segment) := segment.offerPage
        let (pages, segment) := Segment.refillPages allocationClass pages segment
        (fresh.descInitialize allocationClass :: pages, segment)
      else
        let (pages, segment) := Segment.refillPages allocationClass pages segment
        (page :: pages, segment)

structure ComputeNodeAllocator where
  /-- `tracker.current` -/
  current : Option Segment
  threadInfo : ThreadId → Option PageGroup

namespace ComputeNodeAllocator

def empty : ComputeNodeAllocator := ⟨none, fun _ => none⟩

def applyForMemory (allocator : ComputeNodeAllocator) (seg : Nat) : ComputeNodeAllocator :=
  { allocator with current := some (.make seg) }

def setGroup (allocator : ComputeNodeAllocator) (thread : ThreadId) (group : PageGroup) :
    ComputeNodeAllocator :=
  { allocator with threadInfo := Function.update allocator.threadInfo thread (some group) }

/-- The segment both refills take pages from: `tracker.available(PAGEGROUP_NO)`. -/
def refillSource (allocator : ComputeNodeAllocator) : Option Segment :=
  allocator.current.filter fun segment => pageGroupNo ≤ segment.availablePages

/-- `refill`; `none` when it returns false. -/
def refill (allocator : ComputeNodeAllocator) (thread : ThreadId) : Option ComputeNodeAllocator :=
  allocator.refillSource.map fun segment =>
    let (group, segment) := segment.offerPages pageGroupNo
    { allocator.setGroup thread group with current := some segment }

/-- `refill_single_page`. -/
def refillSinglePage (allocator : ComputeNodeAllocator) (thread : ThreadId) (group : PageGroup)
    (allocationClass : AllocationClass) : Option ComputeNodeAllocator :=
  allocator.refillSource.map fun segment =>
    let (group, segment) := segment.refillPages allocationClass group
    { allocator.setGroup thread group with current := some segment }

/-- The part of `allocate` after the page group is known to have a usable page. -/
def allocateFrom (allocator : ComputeNodeAllocator) (thread : ThreadId)
    (allocationClass : AllocationClass) : Option RemotePointer × ComputeNodeAllocator :=
  match allocator.threadInfo thread with
  | none => (none, allocator)
  | some group =>
      let (chunk, group) := PageGroup.allocate allocationClass group
      (chunk, allocator.setGroup thread group)

/-- `ComputeNodeAllocator::allocate` for sizes it does not refuse; `none` is `nullptr`. -/
def allocate (allocator : ComputeNodeAllocator) (thread : ThreadId) (size : Nat) :
    Option RemotePointer × ComputeNodeAllocator :=
  let registered :=
    if (allocator.threadInfo thread).isNone then allocator.refill thread else some allocator
  match registered with
  | none => (none, allocator)
  | some allocator =>
      let group := (allocator.threadInfo thread).getD []
      let allocationClass := getClass size
      let refilled :=
        match group.available allocationClass with
        | .ok => some allocator
        | .emptyPage => allocator.refillSinglePage thread group allocationClass
        | .emptyPageGroup => allocator.refill thread
      match refilled with
      | none => (none, allocator)
      | some allocator => allocator.allocateFrom thread allocationClass

end ComputeNodeAllocator

/-- The segments that the memory node offers, in order: not null, and disjoint. -/
structure SegmentSource where
  segment : Nat → Nat
  positive : ∀ index, 0 < segment index
  apart : ∀ left right, left ≠ right →
    segment left + segmentSize ≤ segment right ∨ segment right + segmentSize ≤ segment left

/-- `MemoryNodeAllocator::allocate` over a region: the header page, then one segment
after the other. -/
def SegmentSource.memoryNode (region : Nat) : SegmentSource where
  segment index := region + memoryPageSize + index * segmentSize
  positive index := by
    simp only [memoryPageSize, segmentSize]
    omega
  apart left right differs := by
    simp only [memoryPageSize, segmentSize]
    omega

/-- The allocator with the number of segments it has been offered. -/
structure RemoteHeap where
  allocator : ComputeNodeAllocator
  offered : Nat

namespace RemoteHeap

def empty : RemoteHeap := ⟨.empty, 0⟩

/-- `ComputeNode::allocate`. -/
def allocate (source : SegmentSource) (heap : RemoteHeap) (thread : ThreadId) (size : Nat) :
    Option RemotePointer × RemoteHeap :=
  match heap.allocator.allocate thread size with
  | (some remote, allocator) => (some remote, { heap with allocator := allocator })
  | (none, allocator) =>
      let allocator := allocator.applyForMemory (source.segment heap.offered)
      let (remote, allocator) := allocator.allocate thread size
      (remote, ⟨allocator, heap.offered + 1⟩)

end RemoteHeap

end DiStore.Memory
