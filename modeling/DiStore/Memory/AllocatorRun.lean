import DiStore.Memory.Fresh
import Mathlib.Data.List.Pairwise

/-!
Contract: the allocator of a compute node under any number of threads.

Owns: `free`, the phases of `allocate` between which other threads run, the run of
all allocator calls with the chunks they returned, and that these chunks share no
byte.

Does not own: the refills of a group of pages (`Memory.Fresh`). `preallocate` is one
more `apply_for_memory`.
-/

set_option autoImplicit false

namespace DiStore.Memory

open DiStore.Concurrency

/-! ### Phases of a call -/

namespace ComputeNodeAllocator

/-- The first test of `allocate`: a thread without a group gets one. -/
def register (allocator : ComputeNodeAllocator) (thread : ThreadId) : Option ComputeNodeAllocator :=
  if (allocator.threadInfo thread).isNone then allocator.refill thread else some allocator

/-- The switch of `allocate`: afterwards the group has a chunk of the class. -/
def prepare (allocator : ComputeNodeAllocator) (thread : ThreadId)
    (allocationClass : AllocationClass) : Option ComputeNodeAllocator :=
  let group := (allocator.threadInfo thread).getD []
  match group.available allocationClass with
  | .ok => some allocator
  | .emptyPage => allocator.refillSinglePage thread group allocationClass
  | .emptyPageGroup => allocator.refill thread

/-- `allocate` is its phases, one after the other. -/
theorem allocate_eq_phases (allocator : ComputeNodeAllocator) (thread : ThreadId) (size : Nat) :
    allocator.allocate thread size =
      match allocator.register thread with
      | none => (none, allocator)
      | some registered =>
          match registered.prepare thread (getClass size) with
          | none => (none, registered)
          | some prepared => prepared.allocateFrom thread (getClass size) := by
  unfold allocate register prepare
  split
  next => rfl
  next => rfl

end ComputeNodeAllocator

/-! ### Freeing -/

/-- `RemotePointer::page`: the low bits are masked. -/
def pageOf (remote : RemotePointer) : Nat := remote / memoryPageSize * memoryPageSize

/-- `mirrors.find`: every page the segment has offered, since none is taken out. -/
def Segment.mirrors (segment : Segment) (page : Nat) : Bool :=
  segment.seg + memoryPageSize ≤ page ∧ page < segment.seg + segment.offset * memoryPageSize ∧
    (page - segment.seg) % memoryPageSize = 0

/-- `PageMirror::free`. -/
def PageMirror.free (page : PageMirror) (remote : RemotePointer) : PageMirror :=
  if page.pageBase = pageOf remote then { page with emptySlots := page.emptySlots + 1 } else page

/-- `free` on the page that a segment's `mirrors` has; a group points to the same page.
A page that no group points to any more has nothing left to observe. -/
def ComputeNodeAllocator.freeIn (allocator : ComputeNodeAllocator) (segment : Segment)
    (remote : RemotePointer) : ComputeNodeAllocator :=
  if segment.mirrors (pageOf remote) then
    { allocator with
      threadInfo := fun thread =>
        (allocator.threadInfo thread).map fun group => group.map fun page => page.free remote }
  else allocator

/-! ### Runs -/

/-- How far a thread is in its call of `allocate`. -/
inductive Progress where
  | idle
  | registered (allocationClass : AllocationClass)
  | prepared (allocationClass : AllocationClass)
deriving DecidableEq

/-- A chunk that `allocate` returned, taken with all bytes of its class. -/
structure Chunk where
  remote : RemotePointer
  allocationClass : AllocationClass

/-- The bytes of a chunk. -/
def Chunk.Covers (chunk : Chunk) (address : Nat) : Prop :=
  chunk.remote ≤ address ∧ address < chunk.remote + chunk.allocationClass.size

/-- The allocator, the segments it no longer takes pages from, its callers, and every
chunk it has returned. -/
structure AllocatorRun where
  allocator : ComputeNodeAllocator
  retired : List Segment
  progress : ThreadId → Progress
  returned : List Chunk

namespace AllocatorRun

def start : AllocatorRun := ⟨.empty, [], fun _ => .idle, []⟩

/-- `tracker.segments`. -/
def segments (run : AllocatorRun) : List Segment := run.allocator.current.toList ++ run.retired

def setProgress (run : AllocatorRun) (thread : ThreadId) (progress : Progress) : AllocatorRun :=
  { run with progress := Function.update run.progress thread progress }

/-- `apply_for_memory`. -/
def applyForMemory (run : AllocatorRun) (seg : Nat) : AllocatorRun :=
  { run with allocator := run.allocator.applyForMemory seg, retired := run.segments }

/-- A call that cannot register its thread returns `nullptr`. -/
def register (run : AllocatorRun) (thread : ThreadId) (size : Nat) : AllocatorRun :=
  match run.allocator.register thread with
  | none => run
  | some allocator => { run with allocator := allocator }.setProgress thread (.registered (getClass size))

def prepare (run : AllocatorRun) (thread : ThreadId) (allocationClass : AllocationClass) : AllocatorRun :=
  match run.allocator.prepare thread allocationClass with
  | none => run.setProgress thread .idle
  | some allocator => { run with allocator := allocator }.setProgress thread (.prepared allocationClass)

def take (run : AllocatorRun) (thread : ThreadId) (allocationClass : AllocationClass) : AllocatorRun :=
  let (remote, allocator) := run.allocator.allocateFrom thread allocationClass
  { run with
    allocator := allocator
    returned := (remote.toList.map fun remote => Chunk.mk remote allocationClass) ++ run.returned
  }.setProgress thread .idle

/-- `free`: in the current segment, then in all segments, the current one among them.
Without a current segment it dereferences a null pointer. -/
def free (run : AllocatorRun) (remote : RemotePointer) : Option AllocatorRun :=
  run.allocator.current.map fun current =>
    { run with
      allocator := (current :: run.segments).foldl
        (fun allocator segment => allocator.freeIn segment remote) run.allocator }

/-- Two segments share no byte. -/
def SegmentsApart (left right : Nat) : Prop := left + segmentSize ≤ right ∨ right + segmentSize ≤ left

instance : Std.Symm fun left right : Segment => SegmentsApart left.seg right.seg :=
  ⟨fun _ _ apart => Or.symm apart⟩

/-- The next call, or the next phase of one, of any thread. -/
inductive Step : AllocatorRun → AllocatorRun → Prop where
  | applyForMemory {run : AllocatorRun} (seg : Nat)
      (apart : ∀ segment ∈ run.segments, SegmentsApart seg segment.seg) : Step run (run.applyForMemory seg)
  | register {run : AllocatorRun} (thread : ThreadId) (size : Nat) (isIdle : run.progress thread = .idle)
      (large : 17 ≤ size) (small : size ≤ 4096) : Step run (run.register thread size)
  | prepare {run : AllocatorRun} (thread : ThreadId) (allocationClass : AllocationClass)
      (isRegistered : run.progress thread = .registered allocationClass) :
      Step run (run.prepare thread allocationClass)
  | take {run : AllocatorRun} (thread : ThreadId) (allocationClass : AllocationClass)
      (isPrepared : run.progress thread = .prepared allocationClass) :
      Step run (run.take thread allocationClass)
  | free {run next : AllocatorRun} (remote : RemotePointer) (isFreed : run.free remote = some next) :
      Step run next

inductive Reached : AllocatorRun → Prop where
  | start : Reached start
  | step {run next : AllocatorRun} (before : Reached run) (step : Step run next) : Reached next

end AllocatorRun

/-! ### Offered pages -/

variable {segment rest current : Segment} {base address seg : Nat} {group result : PageGroup}
variable {run next : AllocatorRun} {thread : ThreadId} {allocationClass : AllocationClass}

/-- The page at `base` left the segment, which keeps its first page. -/
def Segment.Offered (segment : Segment) (base : Nat) : Prop :=
  ∃ place, 1 ≤ place ∧ place < segment.offset ∧ base = segment.seg + place * memoryPageSize

/-- All pages of the segment are offered or available. -/
def Segment.Counted (segment : Segment) : Prop :=
  1 ≤ segment.offset ∧ segment.offset + segment.availablePages = segmentSize / memoryPageSize

theorem Segment.counted_make (seg : Nat) : (Segment.make seg).Counted := by
  constructor
  · exact le_rfl
  · change 1 + (segmentSize / memoryPageSize - 1) = segmentSize / memoryPageSize
    decide

theorem Segment.Counted.refilled (counted : segment.Counted)
    (refilled : Refilled group segment result rest) : rest.Counted :=
  ⟨counted.1.trans refilled.progress, refilled.total.trans counted.2⟩

theorem Segment.Offered.refilled (offered : segment.Offered base)
    (refilled : Refilled group segment result rest) : rest.Offered base := by
  obtain ⟨place, first, low, isBase⟩ := offered
  refine ⟨place, first, low.trans_le refilled.progress, ?_⟩
  rw [isBase, refilled.seg]

/-- An offered page lies in its segment, behind the first page. -/
theorem Segment.Offered.inside (offered : segment.Offered base) (counted : segment.Counted)
    (inPage : InPage base address) :
    segment.seg + memoryPageSize ≤ address ∧ address < segment.seg + segmentSize := by
  obtain ⟨place, first, low, isBase⟩ := offered
  obtain ⟨_, total⟩ := counted
  have whole : segmentSize / memoryPageSize * memoryPageSize = segmentSize := by decide
  have lower := Nat.mul_le_mul_right memoryPageSize first
  have upper := Nat.mul_le_mul_right memoryPageSize
    (show place + 1 ≤ segmentSize / memoryPageSize by omega)
  rw [whole, Nat.add_mul] at upper
  rw [InPage, isBase] at inPage
  omega

theorem Segment.Offered.not_unoffered (offered : segment.Offered base) (inPage : InPage base address) :
    ¬ segment.Unoffered address := by
  obtain ⟨place, first, low, isBase⟩ := offered
  intro unoffered
  have upper := Nat.mul_le_mul_right memoryPageSize (show place + 1 ≤ segment.offset from low)
  rw [Nat.add_mul] at upper
  rw [InPage, isBase] at inPage
  have lower := unoffered.1
  omega

theorem Segment.Unoffered.inside (unoffered : segment.Unoffered address) (counted : segment.Counted) :
    segment.seg ≤ address ∧ address < segment.seg + segmentSize := by
  have whole : segmentSize / memoryPageSize * memoryPageSize = segmentSize := by decide
  have upper := unoffered.2
  rw [counted.2, whole] at upper
  have lower := unoffered.1
  omega

/-! ### The invariant -/

namespace AllocatorRun

/-- A page that some segment has offered. -/
def Offered (run : AllocatorRun) (base : Nat) : Prop :=
  ∃ segment ∈ run.segments, segment.Offered base

/-- Every byte of remote memory has at most one owner. -/
structure Disciplined (run : AllocatorRun) : Prop where
  counted : ∀ segment ∈ run.segments, segment.Counted
  segmentsApart : run.segments.Pairwise fun left right => SegmentsApart left.seg right.seg
  length : ∀ thread group, run.allocator.threadInfo thread = some group → group.length = pageGroupNo
  groups : ∀ thread group, run.allocator.threadInfo thread = some group →
    (group.map PageMirror.pageBase).Pairwise PagesApart
  threads : ∀ left right leftGroup rightGroup, left ≠ right →
    run.allocator.threadInfo left = some leftGroup →
    run.allocator.threadInfo right = some rightGroup →
    ∀ leftPage ∈ leftGroup, ∀ rightPage ∈ rightGroup, PagesApart leftPage.pageBase rightPage.pageBase
  offered : ∀ thread group, run.allocator.threadInfo thread = some group →
    ∀ page ∈ group, run.Offered page.pageBase
  classes : ∀ thread allocationClass, run.progress thread = .registered allocationClass ∨
    run.progress thread = .prepared allocationClass → allocationClass.Counted
  placed : ∀ chunk ∈ run.returned, ∃ base, run.Offered base ∧
    ∀ address, chunk.Covers address → InPage base address
  spent : ∀ chunk ∈ run.returned, ∀ address, chunk.Covers address →
    ∀ thread group, run.allocator.threadInfo thread = some group → ∀ page ∈ group, ¬ page.Remaining address
  apart : run.returned.Pairwise fun left right => ∀ address, left.Covers address → ¬ right.Covers address

theorem disciplined_start : Disciplined start where
  counted _ isMember := by cases isMember
  segmentsApart := List.Pairwise.nil
  length _ _ isGroup := by cases isGroup
  groups _ _ isGroup := by cases isGroup
  threads _ _ _ _ _ isGroup := by cases isGroup
  offered _ _ isGroup := by cases isGroup
  classes _ _ isBusy := by rcases isBusy with isBusy | isBusy <;> cases isBusy
  placed _ isMember := by cases isMember
  spent _ isMember := by cases isMember
  apart := List.Pairwise.nil

/-- Where a thread's new group comes from, and the others'. -/
theorem group_cases {other : ThreadId} {otherGroup : PageGroup} {allocator : ComputeNodeAllocator}
    (isGroup : (allocator.setGroup thread result).threadInfo other = some otherGroup) :
    (other = thread ∧ otherGroup = result) ∨
      (other ≠ thread ∧ allocator.threadInfo other = some otherGroup) := by
  change Function.update allocator.threadInfo thread (some result) other = _ at isGroup
  by_cases same : other = thread
  · subst same
    rw [Function.update_self] at isGroup
    exact .inl ⟨rfl, (Option.some.inj isGroup).symm⟩
  · rw [Function.update_of_ne same] at isGroup
    exact .inr ⟨same, isGroup⟩

theorem segments_of_current (isCurrent : run.allocator.current = some current) :
    run.segments = current :: run.retired := by
  rw [segments, isCurrent]
  rfl

/-- What the current segment still has is in no page of a group and in no chunk. -/
theorem Disciplined.not_unoffered (disciplined : Disciplined run)
    (isCurrent : run.allocator.current = some current) (offered : run.Offered base)
    (inPage : InPage base address) : ¬ current.Unoffered address := by
  intro unoffered
  obtain ⟨segment, isMember, fromSegment⟩ := offered
  have counted := disciplined.counted
  have apart := disciplined.segmentsApart
  rw [segments_of_current isCurrent] at isMember counted apart
  rcases List.mem_cons.mp isMember with isFirst | inRetired
  · subst isFirst
    exact fromSegment.not_unoffered inPage unoffered
  · have inside := fromSegment.inside (counted segment isMember) inPage
    have here := unoffered.inside (counted current List.mem_cons_self)
    have differ : SegmentsApart current.seg segment.seg := (List.pairwise_cons.mp apart).1 segment inRetired
    unfold SegmentsApart at differ
    omega

theorem Disciplined.setProgress (disciplined : Disciplined run) (thread : ThreadId) {progress : Progress}
    (counted : ∀ allocationClass, progress = .registered allocationClass ∨
      progress = .prepared allocationClass → allocationClass.Counted) :
    Disciplined (run.setProgress thread progress) where
  counted := disciplined.counted
  segmentsApart := disciplined.segmentsApart
  length := disciplined.length
  groups := disciplined.groups
  threads := disciplined.threads
  offered := disciplined.offered
  classes other allocationClass isBusy := by
    change Function.update run.progress thread progress other = _ ∨
      Function.update run.progress thread progress other = _ at isBusy
    by_cases same : other = thread
    · rw [same, Function.update_self] at isBusy
      exact counted allocationClass isBusy
    · rw [Function.update_of_ne same] at isBusy
      exact disciplined.classes other allocationClass isBusy
  placed := disciplined.placed
  spent := disciplined.spent
  apart := disciplined.apart

/-! ### Refilling -/

/-- Installing a refilled group. -/
theorem Disciplined.install (disciplined : Disciplined run) (thread : ThreadId)
    (isCurrent : run.allocator.current = some segment)
    (kept : ∀ page ∈ group, ∃ old, run.allocator.threadInfo thread = some old ∧ page ∈ old)
    (keptApart : (group.map PageMirror.pageBase).Pairwise PagesApart)
    (length : result.length = pageGroupNo) (refilled : Refilled group segment result rest) :
    Disciplined { run with
      allocator := { run.allocator.setGroup thread result with current := some rest } } := by
  have isSegments := segments_of_current isCurrent
  have keptOffered : ∀ page ∈ group, run.Offered page.pageBase := by
    intro page isMember
    obtain ⟨old, isOld, inOld⟩ := kept page isMember
    exact disciplined.offered thread old isOld page inOld
  have outside : ∀ base, run.Offered base → ∀ address, InPage base address → ¬ segment.Unoffered address :=
    fun base offered address => disciplined.not_unoffered isCurrent offered
  have newPage : ∀ page ∈ result, page ∉ group →
      (∀ address, InPage page.pageBase address → segment.Unoffered address) ∧ rest.Offered page.pageBase := by
    intro page isMember isNew
    obtain isOld | ⟨place, low, high, isBase⟩ := refilled.pages page isMember
    · exact absurd isOld isNew
    · constructor
      · intro address inPage
        rcases refilled.page_cases isMember with isOld | covers
        · exact absurd isOld isNew
        · exact (covers address inPage).1
      · have counted := disciplined.counted segment (isSegments ▸ List.mem_cons_self)
        refine ⟨place, counted.1.trans low, high, ?_⟩
        rw [isBase, refilled.seg]
  have stillOffered : ∀ base, run.Offered base →
      Offered { run with
        allocator := { run.allocator.setGroup thread result with current := some rest } } base := by
    rintro base ⟨old, isMember, fromOld⟩
    rw [isSegments] at isMember
    rcases List.mem_cons.mp isMember with isFirst | inRetired
    · subst isFirst
      exact ⟨rest, List.mem_cons_self, fromOld.refilled refilled⟩
    · exact ⟨old, List.mem_cons_of_mem _ inRetired, fromOld⟩
  -- a page of the new group against an offered page that is not the thread's own
  have across : ∀ page ∈ result, ∀ other otherGroup, other ≠ thread →
      run.allocator.threadInfo other = some otherGroup → ∀ otherPage ∈ otherGroup,
      PagesApart page.pageBase otherPage.pageBase := by
    intro page isMember other otherGroup differs isOther otherPage inOther
    by_cases isOld : page ∈ group
    · obtain ⟨old, hasOld, inOld⟩ := kept page isOld
      exact disciplined.threads thread other old otherGroup (Ne.symm differs) hasOld isOther page inOld
        otherPage inOther
    · intro address inPage inOtherPage
      exact outside otherPage.pageBase (disciplined.offered other otherGroup isOther otherPage inOther)
        address inOtherPage ((newPage page isMember isOld).1 address inPage)
  have counted := disciplined.counted
  have apart := disciplined.segmentsApart
  rw [isSegments] at counted apart
  constructor
  case counted =>
    intro old isMember
    rcases List.mem_cons.mp isMember with isFirst | inRetired
    · rw [isFirst]
      exact (counted segment List.mem_cons_self).refilled refilled
    · exact counted old (List.mem_cons_of_mem _ inRetired)
  case segmentsApart =>
    obtain ⟨first, others⟩ := List.pairwise_cons.mp apart
    apply List.pairwise_cons.mpr
    refine ⟨fun old inRetired => ?_, others⟩
    rw [refilled.seg]
    exact first old inRetired
  case length =>
    intro other otherGroup isGroup
    rcases group_cases isGroup with ⟨_, isResult⟩ | ⟨_, isOld⟩
    · rw [isResult]
      exact length
    · exact disciplined.length other otherGroup isOld
  case groups =>
    intro other otherGroup isGroup
    rcases group_cases isGroup with ⟨_, isResult⟩ | ⟨_, isOld⟩
    · rw [isResult]
      apply refilled.apart keptApart
      exact fun page isMember => outside page.pageBase (keptOffered page isMember)
    · exact disciplined.groups other otherGroup isOld
  case threads =>
    intro left right leftGroup rightGroup differs isLeft isRight leftPage inLeft rightPage inRight
    rcases group_cases isLeft with ⟨leftOwn, leftResult⟩ | ⟨leftOther, leftOld⟩
    · rcases group_cases isRight with ⟨rightOwn, _⟩ | ⟨rightOther, rightOld⟩
      · exact absurd (leftOwn.trans rightOwn.symm) differs
      · rw [leftResult] at inLeft
        exact across leftPage inLeft right rightGroup rightOther rightOld rightPage inRight
    · rcases group_cases isRight with ⟨_, rightResult⟩ | ⟨_, rightOld⟩
      · rw [rightResult] at inRight
        exact (across rightPage inRight left leftGroup leftOther leftOld leftPage inLeft).symm
      · exact disciplined.threads left right leftGroup rightGroup differs leftOld rightOld leftPage inLeft
          rightPage inRight
  case offered =>
    intro other otherGroup isGroup page isMember
    rcases group_cases isGroup with ⟨_, isResult⟩ | ⟨_, isOld⟩
    · rw [isResult] at isMember
      by_cases inGroup : page ∈ group
      · exact stillOffered _ (keptOffered page inGroup)
      · exact ⟨rest, List.mem_cons_self, (newPage page isMember inGroup).2⟩
    · exact stillOffered _ (disciplined.offered other otherGroup isOld page isMember)
  case classes => exact disciplined.classes
  case placed =>
    intro chunk isMember
    obtain ⟨base, offered, inPage⟩ := disciplined.placed chunk isMember
    exact ⟨base, stillOffered base offered, inPage⟩
  case spent =>
    intro chunk isMember address covers other otherGroup isGroup page inGroup remaining
    rcases group_cases isGroup with ⟨_, isResult⟩ | ⟨_, isOld⟩
    · rw [isResult] at inGroup
      by_cases isKept : page ∈ group
      · obtain ⟨old, hasOld, inOld⟩ := kept page isKept
        exact disciplined.spent chunk isMember address covers thread old hasOld page inOld remaining
      · obtain ⟨base, offered, inPage⟩ := disciplined.placed chunk isMember
        exact outside base offered address (inPage address covers)
          ((newPage page inGroup isKept).1 address remaining.1)
    · exact disciplined.spent chunk isMember address covers other otherGroup isOld page inGroup remaining
  case apart => exact disciplined.apart

theorem refillSource_some {allocator : ComputeNodeAllocator} (isSource : allocator.refillSource = some segment) :
    allocator.current = some segment ∧ pageGroupNo ≤ segment.availablePages := by
  unfold ComputeNodeAllocator.refillSource at isSource
  obtain ⟨isCurrent, room⟩ := Option.filter_eq_some_iff.mp isSource
  exact ⟨isCurrent, by simpa using room⟩

theorem Disciplined.refill (disciplined : Disciplined run) {allocator : ComputeNodeAllocator}
    (refilled : run.allocator.refill thread = some allocator) :
    Disciplined { run with allocator := allocator } := by
  unfold ComputeNodeAllocator.refill at refilled
  obtain ⟨segment, isSource, isAllocator⟩ := Option.map_eq_some_iff.mp refilled
  obtain ⟨isCurrent, room⟩ := refillSource_some isSource
  rw [← isAllocator]
  exact disciplined.install thread isCurrent (fun _ isMember => absurd isMember List.not_mem_nil)
    List.Pairwise.nil (length_offerPages pageGroupNo segment) (offerPages_refilled pageGroupNo segment room)

theorem Disciplined.refillSinglePage (disciplined : Disciplined run) {allocator : ComputeNodeAllocator}
    (isGroup : run.allocator.threadInfo thread = some group)
    (refilled : run.allocator.refillSinglePage thread group allocationClass = some allocator) :
    Disciplined { run with allocator := allocator } := by
  unfold ComputeNodeAllocator.refillSinglePage at refilled
  obtain ⟨segment, isSource, isAllocator⟩ := Option.map_eq_some_iff.mp refilled
  obtain ⟨isCurrent, room⟩ := refillSource_some isSource
  have length := disciplined.length thread group isGroup
  rw [← isAllocator]
  exact disciplined.install thread isCurrent (fun page isMember => ⟨group, isGroup, isMember⟩)
    (disciplined.groups thread group isGroup) ((length_refillPages _ _ _).trans length)
    (refillPages_refilled allocationClass group segment (length ▸ room))

/-! ### Steps -/

theorem Disciplined.register (disciplined : Disciplined run) (thread : ThreadId) {size : Nat}
    (large : 17 ≤ size) (small : size ≤ 4096) : Disciplined (run.register thread size) := by
  unfold AllocatorRun.register
  split
  next => exact disciplined
  next allocator isRegistered =>
    have registered : Disciplined { run with allocator := allocator } := by
      unfold ComputeNodeAllocator.register at isRegistered
      split at isRegistered
      next => exact disciplined.refill isRegistered
      next =>
        rw [← Option.some.inj isRegistered]
        exact disciplined
    apply registered.setProgress
    intro allocationClass isBusy
    have isClass : getClass size = allocationClass := by
      rcases isBusy with isBusy | isBusy
      · exact Progress.registered.inj isBusy
      · cases isBusy
    rw [← isClass]
    exact (getClass_spec large small).1

theorem Disciplined.prepare (disciplined : Disciplined run)
    (isRegistered : run.progress thread = .registered allocationClass) :
    Disciplined (run.prepare thread allocationClass) := by
  unfold AllocatorRun.prepare
  split
  next =>
    apply disciplined.setProgress
    intro _ isBusy
    rcases isBusy with isBusy | isBusy <;> cases isBusy
  next allocator isPrepared =>
    have prepared : Disciplined { run with allocator := allocator } := by
      unfold ComputeNodeAllocator.prepare at isPrepared
      cases hasGroup : run.allocator.threadInfo thread with
      | none =>
          rw [hasGroup] at isPrepared
          simp only [Option.getD_none, PageGroup.available, List.any_nil, Bool.false_eq_true,
            if_false] at isPrepared
          exact disciplined.refill isPrepared
      | some group =>
          rw [hasGroup] at isPrepared
          simp only [Option.getD_some] at isPrepared
          split at isPrepared
          next =>
            rw [← Option.some.inj isPrepared]
            exact disciplined
          next => exact disciplined.refillSinglePage hasGroup isPrepared
          next => exact disciplined.refill isPrepared
    apply prepared.setProgress
    intro other isBusy
    have isClass : allocationClass = other := by
      rcases isBusy with isBusy | isBusy
      · cases isBusy
      · exact Progress.prepared.inj isBusy
    rw [← isClass]
    exact disciplined.classes thread allocationClass (.inl isRegistered)

theorem allocate_group_none (unusable : group.any (PageGroup.usable allocationClass) = false) :
    PageGroup.allocate allocationClass group = (none, group) := by
  induction group with
  | nil => rfl
  | cons first pages ih =>
    rw [List.any_cons, Bool.or_eq_false_iff] at unusable
    rw [PageGroup.allocate, if_neg (by rw [unusable.1]; exact Bool.false_ne_true), ih unusable.2]

/-- Pages of the group after one of them gave a chunk: the same places, with no more left. -/
theorem page_of_taken {before after : PageGroup} {page other : PageMirror}
    (counted : allocationClass.Counted) (usable : PageGroup.usable allocationClass page = true)
    (isMember : other ∈ before ++ (PageGroup.takeChunk allocationClass page).2 :: after) :
    ∃ old ∈ before ++ page :: after, old.pageBase = other.pageBase ∧
      ∀ address, other.Remaining address → old.Remaining address := by
  obtain ⟨sameBase, _, left⟩ := takeChunk_spec counted usable
  rcases List.mem_append.mp isMember with inBefore | inRest
  · exact ⟨other, List.mem_append_left _ inBefore, rfl, fun _ remaining => remaining⟩
  · rcases List.mem_cons.mp inRest with isTaken | inAfter
    · rw [isTaken]
      exact ⟨page, by simp, sameBase.symm, fun address remaining => (left address remaining).1⟩
    · exact ⟨other, by simp [inAfter], rfl, fun _ remaining => remaining⟩

theorem Disciplined.takeChunk (disciplined : Disciplined run) {before after : PageGroup} {page : PageMirror}
    (counted : allocationClass.Counted)
    (isGroup : run.allocator.threadInfo thread = some (before ++ page :: after))
    (usable : PageGroup.usable allocationClass page = true) :
    Disciplined { run with
      allocator := run.allocator.setGroup thread
        (before ++ (PageGroup.takeChunk allocationClass page).2 :: after)
      returned := ⟨(PageGroup.takeChunk allocationClass page).1, allocationClass⟩ :: run.returned } := by
  obtain ⟨sameBase, fromPage, left⟩ := takeChunk_spec counted usable
  have inGroup : page ∈ before ++ page :: after := by simp
  have sameBases : (before ++ (PageGroup.takeChunk allocationClass page).2 :: after).map
      PageMirror.pageBase = (before ++ page :: after).map PageMirror.pageBase := by
    simp [sameBase]
  have oldPage : ∀ other otherGroup, (run.allocator.setGroup thread
      (before ++ (PageGroup.takeChunk allocationClass page).2 :: after)).threadInfo other = some otherGroup →
      ∀ otherPage ∈ otherGroup, ∃ oldGroup, run.allocator.threadInfo other = some oldGroup ∧
        ∃ old ∈ oldGroup, old.pageBase = otherPage.pageBase ∧
          ∀ address, otherPage.Remaining address → old.Remaining address := by
    intro other otherGroup isOther otherPage inOther
    rcases group_cases isOther with ⟨isThread, isResult⟩ | ⟨_, isOld⟩
    · rw [isResult] at inOther
      rw [isThread]
      exact ⟨_, isGroup, page_of_taken counted usable inOther⟩
    · exact ⟨otherGroup, isOld, otherPage, inOther, rfl, fun _ remaining => remaining⟩
  -- the page keeps nothing of the chunk, and no other page has a byte of it
  have gone : ∀ address, (PageGroup.takeChunk allocationClass page).1 ≤ address →
      address < (PageGroup.takeChunk allocationClass page).1 + allocationClass.size →
      ∀ other otherGroup, (run.allocator.setGroup thread
        (before ++ (PageGroup.takeChunk allocationClass page).2 :: after)).threadInfo other = some otherGroup →
      ∀ otherPage ∈ otherGroup, ¬ otherPage.Remaining address := by
    intro address low high other otherGroup isOther otherPage inOther remaining
    have inPage := (fromPage address low high).1
    rcases group_cases isOther with ⟨_, isResult⟩ | ⟨differs, isOld⟩
    · have apart := disciplined.groups thread _ isGroup
      rw [List.map_append, List.map_cons, List.pairwise_append, List.pairwise_cons] at apart
      obtain ⟨_, ⟨toAfter, _⟩, fromBefore⟩ := apart
      rw [isResult] at inOther
      rcases List.mem_append.mp inOther with inBefore | inRest
      · exact fromBefore _ (List.mem_map_of_mem inBefore) _ List.mem_cons_self address remaining.1 inPage
      · rcases List.mem_cons.mp inRest with isTaken | inAfter
        · rw [isTaken] at remaining
          have above := (left address remaining).2
          omega
        · exact toAfter _ (List.mem_map_of_mem inAfter) address inPage remaining.1
    · exact disciplined.threads thread other _ otherGroup (Ne.symm differs) isGroup isOld page inGroup
        otherPage inOther address inPage remaining.1
  constructor
  case counted => exact disciplined.counted
  case segmentsApart => exact disciplined.segmentsApart
  case length =>
    intro other otherGroup isOther
    rcases group_cases isOther with ⟨_, isResult⟩ | ⟨_, isOld⟩
    · rw [isResult, ← disciplined.length thread _ isGroup]
      simp
    · exact disciplined.length other otherGroup isOld
  case groups =>
    intro other otherGroup isOther
    rcases group_cases isOther with ⟨_, isResult⟩ | ⟨_, isOld⟩
    · rw [isResult, sameBases]
      exact disciplined.groups thread _ isGroup
    · exact disciplined.groups other otherGroup isOld
  case threads =>
    intro leftThread rightThread leftGroup rightGroup differs isLeft isRight leftPage inLeft rightPage inRight
    obtain ⟨oldLeft, hasLeft, oldLeftPage, inOldLeft, leftBase, _⟩ :=
      oldPage leftThread leftGroup isLeft leftPage inLeft
    obtain ⟨oldRight, hasRight, oldRightPage, inOldRight, rightBase, _⟩ :=
      oldPage rightThread rightGroup isRight rightPage inRight
    rw [← leftBase, ← rightBase]
    exact disciplined.threads leftThread rightThread oldLeft oldRight differs hasLeft hasRight oldLeftPage
      inOldLeft oldRightPage inOldRight
  case offered =>
    intro other otherGroup isOther otherPage inOther
    obtain ⟨oldGroup, hasOld, old, inOld, base, _⟩ := oldPage other otherGroup isOther otherPage inOther
    rw [← base]
    exact disciplined.offered other oldGroup hasOld old inOld
  case classes => exact disciplined.classes
  case placed =>
    intro chunk isMember
    rcases List.mem_cons.mp isMember with isNew | isOld
    · rw [isNew]
      exact ⟨page.pageBase, disciplined.offered thread _ isGroup page inGroup,
        fun address covers => (fromPage address covers.1 covers.2).1⟩
    · exact disciplined.placed chunk isOld
  case spent =>
    intro chunk isMember address covers other otherGroup isOther otherPage inOther remaining
    rcases List.mem_cons.mp isMember with isNew | isOld
    · rw [isNew] at covers
      exact gone address covers.1 covers.2 other otherGroup isOther otherPage inOther remaining
    · obtain ⟨oldGroup, hasOld, old, inOld, _, more⟩ := oldPage other otherGroup isOther otherPage inOther
      exact disciplined.spent chunk isOld address covers other oldGroup hasOld old inOld (more address remaining)
  case apart =>
    apply List.pairwise_cons.mpr
    refine ⟨fun old isOld address covers coversOld => ?_, disciplined.apart⟩
    exact disciplined.spent old isOld address coversOld thread _ isGroup page inGroup
      (fromPage address covers.1 covers.2)

theorem Disciplined.take (disciplined : Disciplined run)
    (isPrepared : run.progress thread = .prepared allocationClass) :
    Disciplined (run.take thread allocationClass) := by
  have counted := disciplined.classes thread allocationClass (.inr isPrepared)
  have idle : ∀ other : AllocationClass, Progress.idle = .registered other ∨ Progress.idle = .prepared other →
      other.Counted := by
    intro _ isBusy
    rcases isBusy with isBusy | isBusy <;> cases isBusy
  unfold AllocatorRun.take ComputeNodeAllocator.allocateFrom
  cases hasGroup : run.allocator.threadInfo thread with
  | none => exact disciplined.setProgress thread idle
  | some group =>
      cases some : group.any (PageGroup.usable allocationClass) with
      | false =>
          -- `prepare` left a chunk; without one the group would be returned as it is
          have unchanged : run.allocator.setGroup thread group = run.allocator := by
            rw [ComputeNodeAllocator.setGroup, ← hasGroup, Function.update_eq_self]
          simp only [allocate_group_none some, unchanged]
          exact disciplined.setProgress thread idle
      | true =>
          obtain ⟨before, page, after, isSplit, usable, taken⟩ := allocate_group_spec some
          rw [isSplit] at hasGroup
          simp only [taken]
          exact (disciplined.takeChunk counted hasGroup usable).setProgress thread idle

theorem Disciplined.freeIn (disciplined : Disciplined run) (segment : Segment) (remote : RemotePointer) :
    Disciplined { run with allocator := run.allocator.freeIn segment remote } := by
  unfold ComputeNodeAllocator.freeIn
  split
  next =>
    have sameBase : ∀ page : PageMirror, (page.free remote).pageBase = page.pageBase := by
      intro page
      unfold PageMirror.free
      split <;> rfl
    have sameRemaining : ∀ page : PageMirror, ∀ address,
        (page.free remote).Remaining address → page.Remaining address := by
      intro page address
      unfold PageMirror.free
      split
      next => exact fun remaining => remaining
      next => exact fun remaining => remaining
    have sameBases : ∀ group : PageGroup, (group.map fun page => page.free remote).map PageMirror.pageBase =
        group.map PageMirror.pageBase := by
      intro group
      rw [List.map_map]
      exact List.map_congr_left fun page _ => sameBase page
    have oldGroup : ∀ {thread : ThreadId} {group : PageGroup}, ((run.allocator.threadInfo thread).map
        fun group => group.map fun page => page.free remote) = some group →
        ∃ old, run.allocator.threadInfo thread = some old ∧ old.map (fun page => page.free remote) = group :=
      fun isGroup => Option.map_eq_some_iff.mp isGroup
    constructor
    case counted => exact disciplined.counted
    case segmentsApart => exact disciplined.segmentsApart
    case length =>
      intro thread group isGroup
      obtain ⟨old, hasOld, isOld⟩ := oldGroup isGroup
      rw [← isOld, List.length_map]
      exact disciplined.length thread old hasOld
    case groups =>
      intro thread group isGroup
      obtain ⟨old, hasOld, isOld⟩ := oldGroup isGroup
      rw [← isOld, sameBases]
      exact disciplined.groups thread old hasOld
    case threads =>
      intro left right leftGroup rightGroup differs isLeft isRight leftPage inLeft rightPage inRight
      obtain ⟨oldLeft, hasLeft, isOldLeft⟩ := oldGroup isLeft
      obtain ⟨oldRight, hasRight, isOldRight⟩ := oldGroup isRight
      rw [← isOldLeft] at inLeft
      rw [← isOldRight] at inRight
      obtain ⟨oldLeftPage, inOldLeft, isLeftPage⟩ := List.mem_map.mp inLeft
      obtain ⟨oldRightPage, inOldRight, isRightPage⟩ := List.mem_map.mp inRight
      rw [← isLeftPage, ← isRightPage, sameBase, sameBase]
      exact disciplined.threads left right oldLeft oldRight differs hasLeft hasRight oldLeftPage inOldLeft
        oldRightPage inOldRight
    case offered =>
      intro thread group isGroup page isMember
      obtain ⟨old, hasOld, isOld⟩ := oldGroup isGroup
      rw [← isOld] at isMember
      obtain ⟨oldPage, inOld, isPage⟩ := List.mem_map.mp isMember
      rw [← isPage, sameBase]
      exact disciplined.offered thread old hasOld oldPage inOld
    case classes => exact disciplined.classes
    case placed => exact disciplined.placed
    case spent =>
      intro chunk inReturned address covers thread group isGroup page isMember remaining
      obtain ⟨old, hasOld, isOld⟩ := oldGroup isGroup
      rw [← isOld] at isMember
      obtain ⟨oldPage, inOld, isPage⟩ := List.mem_map.mp isMember
      rw [← isPage] at remaining
      exact disciplined.spent chunk inReturned address covers thread old hasOld oldPage inOld
        (sameRemaining oldPage address remaining)
    case apart => exact disciplined.apart
  next => exact disciplined

theorem Disciplined.free (disciplined : Disciplined run) {remote : RemotePointer}
    (isFreed : run.free remote = some next) : Disciplined next := by
  have inAll : ∀ (segments : List Segment) (allocator : ComputeNodeAllocator),
      Disciplined { run with allocator := allocator } →
      Disciplined { run with
        allocator := segments.foldl (fun allocator segment => allocator.freeIn segment remote) allocator } := by
    intro segments
    induction segments with
    | nil => exact fun _ disciplined => disciplined
    | cons segment segments ih => exact fun _ disciplined => ih _ (disciplined.freeIn segment remote)
  obtain ⟨current, _, isNext⟩ := Option.map_eq_some_iff.mp isFreed
  rw [← isNext]
  exact inAll _ run.allocator disciplined

theorem Disciplined.applyForMemory (disciplined : Disciplined run)
    (apart : ∀ segment ∈ run.segments, SegmentsApart seg segment.seg) :
    Disciplined (run.applyForMemory seg) where
  counted segment isMember := by
    rcases List.mem_cons.mp isMember with isNew | isOld
    · rw [isNew]
      exact Segment.counted_make seg
    · exact disciplined.counted segment isOld
  segmentsApart := List.pairwise_cons.mpr ⟨apart, disciplined.segmentsApart⟩
  length := disciplined.length
  groups := disciplined.groups
  threads := disciplined.threads
  offered thread group isGroup page isMember := by
    obtain ⟨segment, inSegments, fromSegment⟩ := disciplined.offered thread group isGroup page isMember
    exact ⟨segment, List.mem_cons_of_mem _ inSegments, fromSegment⟩
  classes := disciplined.classes
  placed chunk isMember := by
    obtain ⟨base, ⟨segment, inSegments, fromSegment⟩, inPage⟩ := disciplined.placed chunk isMember
    exact ⟨base, ⟨segment, List.mem_cons_of_mem _ inSegments, fromSegment⟩, inPage⟩
  spent := disciplined.spent
  apart := disciplined.apart

theorem Disciplined.step (disciplined : Disciplined run) (step : Step run next) : Disciplined next := by
  cases step with
  | applyForMemory seg apart => exact disciplined.applyForMemory apart
  | register thread size _ large small => exact disciplined.register thread large small
  | prepare thread allocationClass isRegistered => exact disciplined.prepare isRegistered
  | take thread allocationClass isPrepared => exact disciplined.take isPrepared
  | free remote isFreed => exact disciplined.free isFreed

theorem Reached.disciplined (reached : Reached run) : Disciplined run := by
  induction reached with
  | start => exact disciplined_start
  | step _ step ih => exact ih.step step

/-- No two chunks share a byte, and every chunk lies in one page, not the first, of one
segment, and touches the first page of none. -/
structure ChunksApart (run : AllocatorRun) : Prop where
  apart : run.returned.Pairwise fun left right => ∀ address, left.Covers address → ¬ right.Covers address
  inOnePage : ∀ chunk ∈ run.returned, ∃ segment ∈ run.segments, ∃ place,
    place < segmentSize / memoryPageSize ∧
      ∀ address, chunk.Covers address → InPage (segment.seg + place * memoryPageSize) address
  firstPages : ∀ chunk ∈ run.returned, ∀ segment ∈ run.segments, ∀ address,
    chunk.Covers address → ¬ InPage segment.seg address

/-- Remote chunks never overlap. -/
theorem chunks_never_overlap (reached : Reached run) : ChunksApart run := by
  have disciplined := reached.disciplined
  constructor
  · exact disciplined.apart
  · intro chunk isMember
    obtain ⟨base, ⟨segment, inSegments, place, first, low, isBase⟩, inPage⟩ :=
      disciplined.placed chunk isMember
    obtain ⟨_, total⟩ := disciplined.counted segment inSegments
    rw [isBase] at inPage
    exact ⟨segment, inSegments, place, by omega, inPage⟩
  · intro chunk isMember segment inSegments address covers inFirst
    obtain ⟨base, ⟨other, inOther, fromOther⟩, inPage⟩ := disciplined.placed chunk isMember
    have inside := fromOther.inside (disciplined.counted other inOther) (inPage address covers)
    have small : memoryPageSize ≤ segmentSize := by decide
    have apart : segment = other ∨ SegmentsApart segment.seg other.seg := by
      by_cases same : segment = other
      · exact .inl same
      · exact .inr (disciplined.segmentsApart.forall inSegments inOther same)
    unfold InPage at inFirst
    rcases apart with same | differ
    · rw [same] at inFirst
      omega
    · unfold SegmentsApart at differ
      omega

/-- Two threads that take a chunk of 128 bytes each, the second while the first is
preparing its own. -/
def twoCallers : AllocatorRun :=
  (((((start.applyForMemory (2 ^ 40)).register 0 100).register 1 128).prepare 1 .chunk128).take 1
    .chunk128).prepare 0 .chunk128

theorem two_callers_apart : ChunksApart (twoCallers.take 0 .chunk128) := by
  have offered : Reached (start.applyForMemory (2 ^ 40)) :=
    .step .start (.applyForMemory _ fun _ isMember => by cases isMember)
  have first : Reached ((start.applyForMemory (2 ^ 40)).register 0 100) :=
    .step offered (.register 0 100 rfl (by decide) (by decide))
  have second := Reached.step first (.register 1 128 (by decide) (by decide) (by decide))
  have prepared := Reached.step second (.prepare 1 .chunk128 (by decide))
  have taken := Reached.step prepared (.take 1 .chunk128 (by decide))
  have waiting : Reached twoCallers := .step taken (.prepare 0 .chunk128 (by decide))
  exact chunks_never_overlap (.step waiting (.take 0 .chunk128 (by decide)))

end AllocatorRun

end DiStore.Memory
