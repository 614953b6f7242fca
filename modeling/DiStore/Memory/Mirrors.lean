import DiStore.Memory.Refills

/-!
Contract: the mirrors of remote pages, as objects that groups and segments point to.

Owns: `mirrors` of a segment, `offer_page` and the refills on pointers, `allocate` and
`free` of `ComputeNodeAllocator` on them, and the pages as a memory node's segments hold them.

Does not own: what `free` credits (`Memory.FreeCredit`), and page ids, which only `dump` reads.
-/

set_option autoImplicit false

namespace DiStore.Memory

open DiStore.Concurrency AllocatorRun

/-- A pointer to a `PageMirror`: how many were made before it. -/
abbrev MirrorPointer := Nat

/-- A segment with its map from the base of a page to the page's mirror. -/
structure TrackedSegment extends Segment where
  mirrors : List (Nat × MirrorPointer)

/-- `tracker` and `thread_info`, over the mirrors that exist. -/
structure MirrorAllocator where
  made : Nat
  mirror : MirrorPointer → PageMirror
  /-- `tracker.segments`, with `tracker.current` in front -/
  segments : List TrackedSegment
  threadInfo : ThreadId → Option (List MirrorPointer)

namespace MirrorAllocator

def empty : MirrorAllocator := ⟨0, fun _ => .cleared 0, [], fun _ => none⟩

/-- `apply_for_memory`. -/
def applyForMemory (allocator : MirrorAllocator) (seg : Nat) : MirrorAllocator :=
  { allocator with segments := ⟨.make seg, []⟩ :: allocator.segments }

def setMirror (allocator : MirrorAllocator) (pointer : MirrorPointer) (page : PageMirror) : MirrorAllocator :=
  { allocator with mirror := Function.update allocator.mirror pointer page }

def setGroup (allocator : MirrorAllocator) (thread : ThreadId) (group : List MirrorPointer) :
    MirrorAllocator :=
  { allocator with threadInfo := Function.update allocator.threadInfo thread (some group) }

/-- The pages of a group. -/
def pages (allocator : MirrorAllocator) (group : List MirrorPointer) : PageGroup :=
  group.map allocator.mirror

/-- `tracker.available`. -/
def trackerAvailable (allocator : MirrorAllocator) (request : Nat) : Bool :=
  match allocator.segments with
  | [] => false
  | current :: _ => decide (request ≤ current.availablePages)

/-- `offer_page`; it is called with a current segment only. -/
def offerPage (allocator : MirrorAllocator) : MirrorPointer × MirrorAllocator :=
  match allocator.segments with
  | [] => (allocator.made, allocator)
  | current :: retired =>
      let page := current.seg + current.offset * memoryPageSize
      (allocator.made,
        { allocator.setMirror allocator.made (.cleared page) with
          made := allocator.made + 1
          -- an insertion keeps what the map has under the page, so it goes behind
          segments :=
            { current with
              offset := current.offset + 1
              availablePages := current.availablePages - 1
              mirrors := current.mirrors ++ [(page, allocator.made)] } :: retired })

/-- The loop of `offer_page_group`. -/
def offerPages : Nat → MirrorAllocator → List MirrorPointer × MirrorAllocator
  | 0, allocator => ([], allocator)
  | count + 1, allocator =>
      let (pointer, allocator) := allocator.offerPage
      let (pointers, allocator) := offerPages count allocator
      (pointer :: pointers, allocator)

/-- The loop of `refill_single_page`. -/
def refillPages (allocationClass : AllocationClass) :
    List MirrorPointer → MirrorAllocator → List MirrorPointer × MirrorAllocator
  | [], allocator => ([], allocator)
  | pointer :: pointers, allocator =>
      if (allocator.mirror pointer).allocationClass = allocationClass ∧
          (allocator.mirror pointer).available = false then
        let (fresh, allocator) := allocator.offerPage
        let allocator := allocator.setMirror fresh ((allocator.mirror fresh).descInitialize allocationClass)
        let (pointers, allocator) := refillPages allocationClass pointers allocator
        (fresh :: pointers, allocator)
      else
        let (pointers, allocator) := refillPages allocationClass pointers allocator
        (pointer :: pointers, allocator)

/-- `refill`; `none` when it returns false. -/
def refill (allocator : MirrorAllocator) (thread : ThreadId) : Option MirrorAllocator :=
  if allocator.trackerAvailable pageGroupNo then
    let (group, allocator) := offerPages pageGroupNo allocator
    some (allocator.setGroup thread group)
  else none

/-- `refill_single_page`. -/
def refillSinglePage (allocator : MirrorAllocator) (thread : ThreadId) (group : List MirrorPointer)
    (allocationClass : AllocationClass) : Option MirrorAllocator :=
  if allocator.trackerAvailable pageGroupNo then
    let (group, allocator) := refillPages allocationClass group allocator
    some (allocator.setGroup thread group)
  else none

/-- `PageGroup::allocate`: from the first usable page. -/
def allocateIn (allocationClass : AllocationClass) :
    List MirrorPointer → MirrorAllocator → Option RemotePointer × MirrorAllocator
  | [], allocator => (none, allocator)
  | pointer :: pointers, allocator =>
      if PageGroup.usable allocationClass (allocator.mirror pointer) then
        let (chunk, page) := PageGroup.takeChunk allocationClass (allocator.mirror pointer)
        (some chunk, allocator.setMirror pointer page)
      else allocateIn allocationClass pointers allocator

/-- The first test of `allocate`: a thread without a group gets one. -/
def register (allocator : MirrorAllocator) (thread : ThreadId) : Option MirrorAllocator :=
  if (allocator.threadInfo thread).isNone then allocator.refill thread else some allocator

/-- The switch of `allocate`. -/
def prepare (allocator : MirrorAllocator) (thread : ThreadId) (allocationClass : AllocationClass) :
    Option MirrorAllocator :=
  let group := (allocator.threadInfo thread).getD []
  match (allocator.pages group).available allocationClass with
  | .ok => some allocator
  | .emptyPage => allocator.refillSinglePage thread group allocationClass
  | .emptyPageGroup => allocator.refill thread

/-- `ComputeNodeAllocator::allocate` for sizes it does not refuse; `none` is `nullptr`. -/
def allocate (allocator : MirrorAllocator) (thread : ThreadId) (size : Nat) :
    Option RemotePointer × MirrorAllocator :=
  match allocator.register thread with
  | none => (none, allocator)
  | some registered =>
      match registered.prepare thread (getClass size) with
      | none => (none, registered)
      | some prepared => allocateIn (getClass size) ((prepared.threadInfo thread).getD []) prepared

/-- One `mirrors.find` of `free`, and `PageMirror::free` on what it finds. -/
def freeIn (segment : TrackedSegment) (page : Nat) (remote : RemotePointer) (allocator : MirrorAllocator) :
    MirrorAllocator :=
  match segment.mirrors.lookup page with
  | none => allocator
  | some pointer => allocator.setMirror pointer ((allocator.mirror pointer).free remote)

/-- `free`: with the chunk in the current segment, then with its page in every segment, the
current one among them. Without a current segment it dereferences a null pointer. -/
def free (allocator : MirrorAllocator) (chunk : RemotePointer) : Option MirrorAllocator :=
  allocator.segments.head?.map fun current =>
    allocator.segments.foldl (fun allocator segment => freeIn segment (pageOf chunk) (pageOf chunk) allocator)
      (freeIn current (pageOf chunk) chunk allocator)

/-! ### Offered pages -/

variable {mem count seg : Nat} {allocator next : MirrorAllocator} {pointer left right : MirrorPointer}
variable {page : PageMirror} {group : List MirrorPointer} {allocationClass : AllocationClass}

theorem trackerAvailable_iff :
    allocator.trackerAvailable count = true ↔
      ∃ current retired, allocator.segments = current :: retired ∧ count ≤ current.availablePages := by
  unfold trackerAvailable
  split
  next none =>
    apply iff_of_false Bool.false_ne_true
    rw [none]
    rintro ⟨_, _, same, _⟩
    cases same
  next current retired isCurrent =>
    rw [isCurrent, decide_eq_true_iff]
    constructor
    · exact fun room => ⟨current, retired, rfl, room⟩
    · rintro ⟨_, _, same, room⟩
      rw [(List.cons.inj same).1]
      exact room

theorem trackerAvailable_offerPage (room : allocator.trackerAvailable (count + 1) = true) :
    allocator.offerPage.2.trackerAvailable count = true := by
  obtain ⟨current, retired, isCurrent, enough⟩ := trackerAvailable_iff.mp room
  rw [trackerAvailable_iff]
  unfold offerPage
  rw [isCurrent]
  exact ⟨_, _, rfl, by show count ≤ current.availablePages - 1; omega⟩

theorem trackerAvailable_one (room : allocator.trackerAvailable (count + 1) = true) :
    allocator.trackerAvailable 1 = true := by
  obtain ⟨current, retired, isCurrent, enough⟩ := trackerAvailable_iff.mp room
  exact trackerAvailable_iff.mpr ⟨current, retired, isCurrent, by omega⟩

/-- Every mirror is in the map of one segment, under its page; `mem` is the buffer the
segments are cut from. -/
structure Tracked (mem : Nat) (allocator : MirrorAllocator) : Prop where
  handed : ∀ segment ∈ allocator.segments, ∃ index, segment.seg = (SegmentSource.memoryNode mem).segment index
  apart : allocator.segments.Pairwise fun left right => SegmentsApart left.seg right.seg
  counted : ∀ segment ∈ allocator.segments, segment.toSegment.Counted
  recorded : ∀ segment ∈ allocator.segments, ∀ base pointer, (base, pointer) ∈ segment.mirrors →
    pointer < allocator.made ∧ (allocator.mirror pointer).pageBase = base ∧ segment.toSegment.Offered base
  mapped : ∀ pointer, pointer < allocator.made → ∃ segment ∈ allocator.segments,
    ((allocator.mirror pointer).pageBase, pointer) ∈ segment.mirrors
  single : ∀ left right, left < allocator.made → right < allocator.made →
    (allocator.mirror left).pageBase = (allocator.mirror right).pageBase → left = right

theorem tracked_empty : Tracked mem empty where
  handed _ isMember := by cases isMember
  apart := List.Pairwise.nil
  counted _ isMember := by cases isMember
  recorded _ isMember := by cases isMember
  mapped _ isBelow := by cases isBelow
  single _ _ isBelow := by cases isBelow

theorem Tracked.setGroup (tracked : Tracked mem allocator) (thread : ThreadId) (group : List MirrorPointer) :
    Tracked mem (allocator.setGroup thread group) :=
  ⟨tracked.handed, tracked.apart, tracked.counted, tracked.recorded, tracked.mapped, tracked.single⟩

/-- A write to a mirror that leaves its page. -/
theorem pageBase_setMirror (sameBase : page.pageBase = (allocator.mirror pointer).pageBase)
    (other : MirrorPointer) :
    ((allocator.setMirror pointer page).mirror other).pageBase = (allocator.mirror other).pageBase := by
  show (Function.update allocator.mirror pointer page other).pageBase = _
  by_cases same : other = pointer
  · rw [same, Function.update_self, sameBase]
  · rw [Function.update_of_ne same]

theorem Tracked.setMirror (tracked : Tracked mem allocator)
    (sameBase : page.pageBase = (allocator.mirror pointer).pageBase) :
    Tracked mem (allocator.setMirror pointer page) where
  handed := tracked.handed
  apart := tracked.apart
  counted := tracked.counted
  recorded segment isSegment base other isMember := by
    rw [pageBase_setMirror sameBase]
    exact tracked.recorded segment isSegment base other isMember
  mapped other isBelow := by
    rw [pageBase_setMirror sameBase]
    exact tracked.mapped other isBelow
  single left right leftBelow rightBelow same := by
    rw [pageBase_setMirror sameBase, pageBase_setMirror sameBase] at same
    exact tracked.single left right leftBelow rightBelow same

theorem Tracked.applyForMemory (tracked : Tracked mem allocator) {index : Nat}
    (unused : ∀ segment ∈ allocator.segments, segment.seg ≠ (SegmentSource.memoryNode mem).segment index) :
    Tracked mem (allocator.applyForMemory ((SegmentSource.memoryNode mem).segment index)) where
  handed segment isMember := by
    rcases List.mem_cons.mp isMember with isNew | isOld
    · exact ⟨index, by rw [isNew]; rfl⟩
    · exact tracked.handed segment isOld
  apart := by
    refine List.pairwise_cons.mpr ⟨?_, tracked.apart⟩
    intro segment isMember
    obtain ⟨other, isOther⟩ := tracked.handed segment isMember
    rw [isOther]
    apply (SegmentSource.memoryNode mem).apart
    intro same
    apply unused segment isMember
    rw [isOther, same]
  counted segment isMember := by
    rcases List.mem_cons.mp isMember with isNew | isOld
    · rw [isNew]
      exact Segment.counted_make _
    · exact tracked.counted segment isOld
  recorded segment isMember base pointer isEntry := by
    rcases List.mem_cons.mp isMember with isNew | isOld
    · rw [isNew] at isEntry
      cases isEntry
    · exact tracked.recorded segment isOld base pointer isEntry
  mapped pointer isBelow := by
    obtain ⟨segment, isMember, isEntry⟩ := tracked.mapped pointer isBelow
    exact ⟨segment, List.mem_cons_of_mem _ isMember, isEntry⟩
  single := tracked.single

theorem inPage_base (base : Nat) : InPage base base :=
  ⟨le_rfl, Nat.lt_add_of_pos_right (by decide)⟩

/-- The next page of the current segment is no page that has a mirror. -/
theorem Tracked.base_ne (tracked : Tracked mem allocator) {current : TrackedSegment}
    {retired : List TrackedSegment} (isCurrent : allocator.segments = current :: retired)
    (room : 1 ≤ current.availablePages) (isBelow : pointer < allocator.made) :
    (allocator.mirror pointer).pageBase ≠ current.seg + current.offset * memoryPageSize := by
  intro same
  obtain ⟨segment, isMember, isEntry⟩ := tracked.mapped pointer isBelow
  obtain ⟨_, _, offered⟩ := tracked.recorded segment isMember _ _ isEntry
  have counted := tracked.counted segment isMember
  have apart := tracked.apart
  have currentCounted := tracked.counted current (isCurrent ▸ List.mem_cons_self)
  rw [isCurrent] at isMember apart
  rw [same] at offered
  rcases List.mem_cons.mp isMember with isFirst | isRetired
  · rw [isFirst] at offered
    obtain ⟨place, _, low, isBase⟩ := offered
    have places := Nat.eq_of_mul_eq_mul_right (by decide : 0 < memoryPageSize) (Nat.add_left_cancel isBase)
    exact absurd places (Nat.ne_of_gt low)
  · have inside := offered.inside counted (inPage_base _)
    have unoffered : current.toSegment.Unoffered (current.seg + current.offset * memoryPageSize) := by
      refine ⟨le_rfl, ?_⟩
      rw [Nat.add_mul]
      have positive := Nat.mul_le_mul_right memoryPageSize room
      have isPage : 0 < memoryPageSize := by decide
      omega
    have here := unoffered.inside currentCounted
    have differ : SegmentsApart current.seg segment.seg := (List.pairwise_cons.mp apart).1 segment isRetired
    unfold SegmentsApart at differ
    omega

theorem Tracked.offerPage (tracked : Tracked mem allocator) (room : allocator.trackerAvailable 1 = true) :
    Tracked mem allocator.offerPage.2 := by
  obtain ⟨current, retired, isCurrent, enough⟩ := trackerAvailable_iff.mp room
  have handed := tracked.handed
  have apart := tracked.apart
  have counted := tracked.counted
  have recorded := tracked.recorded
  have mapped := tracked.mapped
  have newBase : ∀ pointer, pointer < allocator.made →
      (allocator.mirror pointer).pageBase ≠ current.seg + current.offset * memoryPageSize :=
    fun pointer isBelow => tracked.base_ne isCurrent enough isBelow
  have old : ∀ pointer, pointer < allocator.made → ∀ page,
      Function.update allocator.mirror allocator.made page pointer = allocator.mirror pointer :=
    fun pointer isBelow page => Function.update_of_ne (Nat.ne_of_lt isBelow) page allocator.mirror
  unfold MirrorAllocator.offerPage
  rw [isCurrent] at handed apart counted recorded mapped ⊢
  constructor
  case handed =>
    intro segment isMember
    rcases List.mem_cons.mp isMember with isFirst | isRetired
    · rw [isFirst]
      exact handed current List.mem_cons_self
    · exact handed segment (List.mem_cons_of_mem _ isRetired)
  case apart => exact List.pairwise_cons.mpr (List.pairwise_cons.mp apart)
  case counted =>
    intro segment isMember
    rcases List.mem_cons.mp isMember with isFirst | isRetired
    · rw [isFirst]
      obtain ⟨first, total⟩ := counted current List.mem_cons_self
      refine ⟨Nat.le_succ_of_le first, ?_⟩
      show current.offset + 1 + (current.availablePages - 1) = _
      omega
    · exact counted segment (List.mem_cons_of_mem _ isRetired)
  case recorded =>
    intro segment isMember base pointer isEntry
    show pointer < allocator.made + 1 ∧ (Function.update allocator.mirror allocator.made _ pointer).pageBase = base ∧ _
    rcases List.mem_cons.mp isMember with isFirst | isRetired
    · rw [isFirst] at isEntry ⊢
      rcases List.mem_append.mp isEntry with isOld | isNew
      · obtain ⟨isBelow, isBase, place, first, low, isPlace⟩ := recorded current List.mem_cons_self base pointer isOld
        rw [old pointer isBelow]
        exact ⟨isBelow.trans (Nat.lt_succ_self _), isBase, place, first, low.trans (Nat.lt_succ_self _), isPlace⟩
      · obtain ⟨isBase, isPointer⟩ := Prod.mk.inj (List.mem_singleton.mp isNew)
        rw [isPointer, Function.update_self]
        exact ⟨Nat.lt_succ_self _, isBase.symm, current.offset, (counted current List.mem_cons_self).1,
          Nat.lt_succ_self _, isBase⟩
    · obtain ⟨isBelow, isBase, offered⟩ := recorded segment (List.mem_cons_of_mem _ isRetired) base pointer isEntry
      rw [old pointer isBelow]
      exact ⟨isBelow.trans (Nat.lt_succ_self _), isBase, offered⟩
  case mapped =>
    intro pointer isBelow
    show ∃ segment ∈ _, ((Function.update allocator.mirror allocator.made _ pointer).pageBase, pointer) ∈ _
    rcases Nat.lt_succ_iff_lt_or_eq.mp isBelow with isOld | isNew
    · rw [old pointer isOld]
      obtain ⟨segment, isMember, isEntry⟩ := mapped pointer isOld
      rcases List.mem_cons.mp isMember with isFirst | isRetired
      · rw [isFirst] at isEntry
        exact ⟨_, List.mem_cons_self, List.mem_append_left _ isEntry⟩
      · exact ⟨segment, List.mem_cons_of_mem _ isRetired, isEntry⟩
    · rw [isNew, Function.update_self]
      exact ⟨_, List.mem_cons_self, List.mem_append_right _ (List.mem_singleton.mpr rfl)⟩
  case single =>
    intro left right leftBelow rightBelow same
    change (Function.update allocator.mirror allocator.made _ left).pageBase =
      (Function.update allocator.mirror allocator.made _ right).pageBase at same
    rcases Nat.lt_succ_iff_lt_or_eq.mp leftBelow with leftOld | leftNew
    · rcases Nat.lt_succ_iff_lt_or_eq.mp rightBelow with rightOld | rightNew
      · rw [old left leftOld, old right rightOld] at same
        exact tracked.single left right leftOld rightOld same
      · rw [old left leftOld, rightNew, Function.update_self] at same
        exact absurd same (newBase left leftOld)
    · rcases Nat.lt_succ_iff_lt_or_eq.mp rightBelow with rightOld | rightNew
      · rw [leftNew, old right rightOld, Function.update_self] at same
        exact absurd same.symm (newBase right rightOld)
      · rw [leftNew, rightNew]

/-! ### Refilled groups -/

/-- A group was refilled: `result` has pointers of `group` and pointers to new mirrors, and the
mirrors there were are as before. -/
structure Renewed (before after : MirrorAllocator) (group result : List MirrorPointer) : Prop where
  made : before.made ≤ after.made
  kept : ∀ pointer, pointer < before.made → after.mirror pointer = before.mirror pointer
  threadInfo : after.threadInfo = before.threadInfo
  pointers : ∀ pointer ∈ result, pointer ∈ group ∨ before.made ≤ pointer
  bounded : (∀ pointer ∈ group, pointer < before.made) → ∀ pointer ∈ result, pointer < after.made
  nodup : (∀ pointer ∈ group, pointer < before.made) → group.Nodup → result.Nodup

theorem renewed_refl (group : List MirrorPointer) : Renewed allocator allocator group group where
  made := le_rfl
  kept _ _ := rfl
  threadInfo := rfl
  pointers _ isMember := Or.inl isMember
  bounded bounded := bounded
  nodup _ nodup := nodup

/-- A new page in front of the rest. -/
theorem Renewed.consNew {middle : MirrorAllocator} {larger result : List MirrorPointer}
    (later : Renewed middle next group result) (isMade : middle.made = allocator.made + 1)
    (same : ∀ pointer, pointer < allocator.made → middle.mirror pointer = allocator.mirror pointer)
    (threads : middle.threadInfo = allocator.threadInfo) (part : group.Sublist larger) :
    Renewed allocator next larger (allocator.made :: result) := by
  have grown : allocator.made < middle.made := by omega
  constructor
  case made => exact grown.le.trans later.made
  case kept =>
    intro pointer isBelow
    rw [later.kept pointer (isBelow.trans grown), same pointer isBelow]
  case threadInfo => exact later.threadInfo.trans threads
  case pointers =>
    intro pointer isMember
    rcases List.mem_cons.mp isMember with isNew | isLater
    · exact Or.inr (Nat.le_of_eq isNew.symm)
    · rcases later.pointers pointer isLater with isOld | isNew
      · exact Or.inl (part.mem isOld)
      · exact Or.inr (grown.le.trans isNew)
  case bounded =>
    intro bounded pointer isMember
    rcases List.mem_cons.mp isMember with isNew | isLater
    · rw [isNew]
      exact grown.trans_le later.made
    · exact later.bounded (fun old isOld => (bounded old (part.mem isOld)).trans grown) pointer isLater
  case nodup =>
    intro bounded nodup
    have below : ∀ pointer ∈ group, pointer < allocator.made :=
      fun pointer isOld => bounded pointer (part.mem isOld)
    rw [List.nodup_cons]
    constructor
    · intro isLater
      rcases later.pointers _ isLater with isOld | isNew
      · exact lt_irrefl _ (below _ isOld)
      · exact absurd grown (Nat.not_lt.mpr isNew)
    · exact later.nodup (fun pointer isOld => (below pointer isOld).trans grown) (nodup.sublist part)

/-- A page that stays. -/
theorem Renewed.consKept {result : List MirrorPointer} (later : Renewed allocator next group result) :
    Renewed allocator next (pointer :: group) (pointer :: result) where
  made := later.made
  kept := later.kept
  threadInfo := later.threadInfo
  pointers other isMember := by
    rcases List.mem_cons.mp isMember with isFirst | isLater
    · exact Or.inl (List.mem_cons.mpr (Or.inl isFirst))
    · exact (later.pointers other isLater).imp_left (List.mem_cons_of_mem _)
  bounded bounded other isMember := by
    rcases List.mem_cons.mp isMember with isFirst | isLater
    · rw [isFirst]
      exact (bounded pointer List.mem_cons_self).trans_le later.made
    · exact later.bounded (fun old isOld => bounded old (List.mem_cons_of_mem _ isOld)) other isLater
  nodup bounded nodup := by
    obtain ⟨isFresh, restNodup⟩ := List.nodup_cons.mp nodup
    rw [List.nodup_cons]
    constructor
    · intro isLater
      rcases later.pointers pointer isLater with isOld | isNew
      · exact isFresh isOld
      · exact absurd (bounded pointer List.mem_cons_self) (Nat.not_lt.mpr isNew)
    · exact later.nodup (fun old isOld => bounded old (List.mem_cons_of_mem _ isOld)) restNodup

/-- What a refill loop does from a current segment: its mirrors and their pages, and what the
loop on pages gives. -/
structure RefillsAs (before after : MirrorAllocator) (group result : List MirrorPointer)
    (retired : List TrackedSegment) (refilled : PageGroup × Segment) : Prop where
  renewed : Renewed before after group result
  pages : after.pages result = refilled.1
  current : ∃ mirrors, after.segments = ⟨refilled.2, mirrors⟩ :: retired

variable {current : TrackedSegment} {retired : List TrackedSegment}

/-- One page of the current segment, as `offer_page` of the segment alone gives it. -/
structure OffersPage (before after : MirrorAllocator) (current : TrackedSegment)
    (retired : List TrackedSegment) : Prop where
  made : after.made = before.made + 1
  old : ∀ pointer, pointer < before.made → after.mirror pointer = before.mirror pointer
  new : after.mirror before.made = current.toSegment.offerPage.1
  threadInfo : after.threadInfo = before.threadInfo
  segments : ∃ mirrors, after.segments = ⟨current.toSegment.offerPage.2, mirrors⟩ :: retired

theorem offersPage (isCurrent : allocator.segments = current :: retired) :
    OffersPage allocator allocator.offerPage.2 current retired := by
  unfold MirrorAllocator.offerPage
  rw [isCurrent]
  constructor
  case made => rfl
  case old => exact fun pointer isBelow => Function.update_of_ne (Nat.ne_of_lt isBelow) _ _
  case new => exact Function.update_self allocator.made _ allocator.mirror
  case threadInfo => rfl
  case segments => exact ⟨_, rfl⟩

theorem offerPage_fst (allocator : MirrorAllocator) : allocator.offerPage.1 = allocator.made := by
  unfold MirrorAllocator.offerPage
  split
  next => rfl
  next => rfl

theorem offerPages_succ (count : Nat) (allocator : MirrorAllocator) :
    offerPages (count + 1) allocator =
      (allocator.made :: (offerPages count allocator.offerPage.2).1, (offerPages count allocator.offerPage.2).2) := by
  rw [← offerPage_fst]
  rfl

/-- A new page of the class, as `refill_single_page` puts it in a full one's place. -/
def freshPage (allocationClass : AllocationClass) (allocator : MirrorAllocator) : MirrorAllocator :=
  allocator.offerPage.2.setMirror allocator.made
    ((allocator.offerPage.2.mirror allocator.made).descInitialize allocationClass)

theorem refillPages_full (isFull : (allocator.mirror pointer).allocationClass = allocationClass ∧
      (allocator.mirror pointer).available = false) (group : List MirrorPointer) :
    refillPages allocationClass (pointer :: group) allocator =
      (allocator.made :: (refillPages allocationClass group (allocator.freshPage allocationClass)).1,
        (refillPages allocationClass group (allocator.freshPage allocationClass)).2) := by
  rw [refillPages, if_pos isFull, freshPage, ← offerPage_fst]

theorem freshPage_offers (allocationClass : AllocationClass) (isCurrent : allocator.segments = current :: retired) :
    (allocator.freshPage allocationClass).made = allocator.made + 1 ∧
      (∀ pointer, pointer < allocator.made →
        (allocator.freshPage allocationClass).mirror pointer = allocator.mirror pointer) ∧
      (allocator.freshPage allocationClass).mirror allocator.made =
        current.toSegment.offerPage.1.descInitialize allocationClass ∧
      (allocator.freshPage allocationClass).threadInfo = allocator.threadInfo ∧
      ∃ mirrors, (allocator.freshPage allocationClass).segments =
        ⟨current.toSegment.offerPage.2, mirrors⟩ :: retired := by
  have offers := offersPage isCurrent
  refine ⟨offers.made, ?_, ?_, offers.threadInfo, offers.segments⟩
  · intro pointer isBelow
    rw [← offers.old pointer isBelow]
    exact Function.update_of_ne (Nat.ne_of_lt isBelow) _ _
  · rw [← offers.new]
    exact Function.update_self allocator.made _ allocator.offerPage.2.mirror

theorem offerPages_refillsAs (count : Nat) (isCurrent : allocator.segments = current :: retired) :
    RefillsAs allocator (offerPages count allocator).2 [] (offerPages count allocator).1 retired
      (current.toSegment.offerPages count) := by
  induction count generalizing allocator current with
  | zero => exact ⟨renewed_refl [], rfl, current.mirrors, isCurrent⟩
  | succ count inductionHypothesis =>
      have offers := offersPage isCurrent
      obtain ⟨mirrors, isSegments⟩ := offers.segments
      have later := inductionHypothesis isSegments
      rw [offerPages_succ]
      constructor
      case renewed => exact later.renewed.consNew offers.made offers.old offers.threadInfo (List.Sublist.refl [])
      case pages =>
        show _ :: pages _ _ = _ :: _
        rw [later.pages, later.renewed.kept allocator.made (Nat.lt_of_lt_of_eq (Nat.lt_succ_self _) offers.made.symm),
          offers.new]
        rfl
      case current => exact later.current

theorem refillPages_refillsAs (group : List MirrorPointer) (isCurrent : allocator.segments = current :: retired)
    (bounded : ∀ pointer ∈ group, pointer < allocator.made) :
    RefillsAs allocator (refillPages allocationClass group allocator).2 group
      (refillPages allocationClass group allocator).1 retired
      (Segment.refillPages allocationClass (allocator.pages group) current.toSegment) := by
  induction group generalizing allocator current with
  | nil => exact ⟨renewed_refl [], rfl, current.mirrors, isCurrent⟩
  | cons first rest inductionHypothesis =>
      have restBounded : ∀ pointer ∈ rest, pointer < allocator.made :=
        fun pointer isMember => bounded pointer (List.mem_cons_of_mem _ isMember)
      show RefillsAs _ _ _ _ _ (Segment.refillPages allocationClass (_ :: allocator.pages rest) _)
      by_cases isFull : (allocator.mirror first).allocationClass = allocationClass ∧
          (allocator.mirror first).available = false
      · obtain ⟨isMade, isOld, isNew, isThreadInfo, mirrors, isSegments⟩ :=
          freshPage_offers allocationClass isCurrent
        rw [refillPages_full isFull]
        unfold Segment.refillPages
        rw [if_pos isFull]
        generalize allocator.freshPage allocationClass = middle at isMade isOld isNew isThreadInfo isSegments ⊢
        have below : allocator.made < middle.made := Nat.lt_of_lt_of_eq (Nat.lt_succ_self _) isMade.symm
        have later := inductionHypothesis isSegments
          (fun pointer isMember => (restBounded pointer isMember).trans below)
        have samePages : middle.pages rest = allocator.pages rest :=
          List.map_congr_left fun pointer isMember => isOld pointer (restBounded pointer isMember)
        rw [samePages] at later
        constructor
        case renewed => exact later.renewed.consNew isMade isOld isThreadInfo (List.sublist_cons_self first rest)
        case pages =>
          show _ :: pages _ _ = _ :: _
          rw [later.pages, later.renewed.kept allocator.made below, isNew]
        case current => exact later.current
      · have later := inductionHypothesis isCurrent restBounded
        unfold refillPages Segment.refillPages
        rw [if_neg isFull, if_neg isFull]
        constructor
        case renewed => exact later.renewed.consKept
        case pages =>
          show _ :: pages _ _ = _ :: _
          rw [later.pages, later.renewed.kept first (bounded first List.mem_cons_self)]
        case current => exact later.current

/-! ### The allocator of the groups' pages -/

/-- The allocator with the pages its groups point to. -/
def view (allocator : MirrorAllocator) : ComputeNodeAllocator where
  current := allocator.segments.head?.map TrackedSegment.toSegment
  threadInfo thread := (allocator.threadInfo thread).map allocator.pages

/-- No page is in two places of groups. -/
structure Exclusive (allocator : MirrorAllocator) : Prop where
  length : ∀ thread group, allocator.threadInfo thread = some group → group.length = pageGroupNo
  bounded : ∀ thread group, allocator.threadInfo thread = some group →
    ∀ pointer ∈ group, pointer < allocator.made
  nodup : ∀ thread group, allocator.threadInfo thread = some group → group.Nodup
  threads : ∀ left right leftGroup rightGroup, left ≠ right →
    allocator.threadInfo left = some leftGroup → allocator.threadInfo right = some rightGroup →
    ∀ pointer ∈ leftGroup, pointer ∉ rightGroup

theorem exclusive_empty : Exclusive empty where
  length _ _ isGroup := by cases isGroup
  bounded _ _ isGroup := by cases isGroup
  nodup _ _ isGroup := by cases isGroup
  threads _ _ _ _ _ isGroup := by cases isGroup

variable {thread : ThreadId} {result : List MirrorPointer}

/-- Where a thread's new group comes from, and the others'. -/
theorem pointers_cases {other : ThreadId} {otherGroup : List MirrorPointer}
    (isGroup : (allocator.setGroup thread result).threadInfo other = some otherGroup) :
    (other = thread ∧ otherGroup = result) ∨
      (other ≠ thread ∧ allocator.threadInfo other = some otherGroup) := by
  change Function.update allocator.threadInfo thread (some result) other = _ at isGroup
  by_cases same : other = thread
  · rw [same, Function.update_self] at isGroup
    exact Or.inl ⟨same, (Option.some.inj isGroup).symm⟩
  · rw [Function.update_of_ne same] at isGroup
    exact Or.inr ⟨same, isGroup⟩

/-- A refilled group, made from none or from the thread's own. -/
theorem Exclusive.renewed (exclusive : Exclusive allocator) (renewed : Renewed allocator next group result)
    (own : group = [] ∨ allocator.threadInfo thread = some group) (length : result.length = pageGroupNo) :
    Exclusive (next.setGroup thread result) := by
  have ownBounded : ∀ pointer ∈ group, pointer < allocator.made := by
    rcases own with isNone | isOwn
    · rw [isNone]
      exact fun _ isMember => absurd isMember List.not_mem_nil
    · exact exclusive.bounded thread group isOwn
  have ownNodup : group.Nodup := by
    rcases own with isNone | isOwn
    · rw [isNone]
      exact List.nodup_nil
    · exact exclusive.nodup thread group isOwn
  -- a pointer of the new group in another thread's
  have across : ∀ other otherGroup, other ≠ thread → allocator.threadInfo other = some otherGroup →
      ∀ pointer ∈ result, pointer ∉ otherGroup := by
    intro other otherGroup differs isOther pointer isMember inOther
    rcases renewed.pointers pointer isMember with isOld | isNew
    · rcases own with isNone | isOwn
      · rw [isNone] at isOld
        cases isOld
      · exact exclusive.threads thread other group otherGroup (Ne.symm differs) isOwn isOther pointer isOld inOther
    · exact absurd (exclusive.bounded other otherGroup isOther pointer inOther) (Nat.not_lt.mpr isNew)
  have cases' : ∀ other otherGroup, (next.setGroup thread result).threadInfo other = some otherGroup →
      (other = thread ∧ otherGroup = result) ∨ (other ≠ thread ∧ allocator.threadInfo other = some otherGroup) := by
    intro other otherGroup isGroup
    rw [← renewed.threadInfo]
    exact pointers_cases isGroup
  constructor
  case length =>
    intro other otherGroup isGroup
    rcases cases' other otherGroup isGroup with ⟨_, isResult⟩ | ⟨_, isOld⟩
    · rw [isResult]
      exact length
    · exact exclusive.length other otherGroup isOld
  case bounded =>
    intro other otherGroup isGroup pointer isMember
    rcases cases' other otherGroup isGroup with ⟨_, isResult⟩ | ⟨_, isOld⟩
    · rw [isResult] at isMember
      exact renewed.bounded ownBounded pointer isMember
    · exact (exclusive.bounded other otherGroup isOld pointer isMember).trans_le renewed.made
  case nodup =>
    intro other otherGroup isGroup
    rcases cases' other otherGroup isGroup with ⟨_, isResult⟩ | ⟨_, isOld⟩
    · rw [isResult]
      exact renewed.nodup ownBounded ownNodup
    · exact exclusive.nodup other otherGroup isOld
  case threads =>
    intro left right leftGroup rightGroup differs isLeft isRight pointer inLeft inRight
    rcases cases' left leftGroup isLeft with ⟨leftOwn, leftResult⟩ | ⟨leftOther, leftOld⟩
    · rcases cases' right rightGroup isRight with ⟨rightOwn, _⟩ | ⟨rightOther, rightOld⟩
      · exact differs (leftOwn.trans rightOwn.symm)
      · rw [leftResult] at inLeft
        exact across right rightGroup rightOther rightOld pointer inLeft inRight
    · rcases cases' right rightGroup isRight with ⟨_, rightResult⟩ | ⟨_, rightOld⟩
      · rw [rightResult] at inRight
        exact across left leftGroup leftOther leftOld pointer inRight inLeft
      · exact exclusive.threads left right leftGroup rightGroup differs leftOld rightOld pointer inLeft inRight

/-- The view of a refill is the refill of the view. -/
theorem view_refilled {refilled : PageGroup × Segment} (exclusive : Exclusive allocator)
    (refills : RefillsAs allocator next group result retired refilled) :
    (next.setGroup thread result).view =
      { allocator.view.setGroup thread refilled.1 with current := some refilled.2 } := by
  obtain ⟨mirrors, isSegments⟩ := refills.current
  unfold view
  congr 1
  · show next.segments.head?.map _ = _
    rw [isSegments]
    rfl
  · funext other
    show (Function.update next.threadInfo thread (some result) other).map next.pages =
      Function.update (fun thread => (allocator.threadInfo thread).map allocator.pages) thread
        (some refilled.1) other
    by_cases same : other = thread
    · rw [same, Function.update_self, Function.update_self, ← refills.pages]
      rfl
    · rw [Function.update_of_ne same, Function.update_of_ne same, refills.renewed.threadInfo]
      cases isOther : allocator.threadInfo other with
      | none => rfl
      | some otherGroup =>
          have samePages : next.pages otherGroup = allocator.pages otherGroup :=
            List.map_congr_left fun pointer isMember =>
              refills.renewed.kept pointer (exclusive.bounded other otherGroup isOther pointer isMember)
          rw [Option.map_some, Option.map_some, samePages]

theorem view_current (isCurrent : allocator.segments = current :: retired) :
    allocator.view.current = some current.toSegment := by
  show allocator.segments.head?.map _ = _
  rw [isCurrent]
  rfl

theorem view_refillSource :
    allocator.view.refillSource =
      if allocator.trackerAvailable pageGroupNo then allocator.view.current else none := by
  unfold ComputeNodeAllocator.refillSource trackerAvailable view
  cases allocator.segments with
  | nil => rfl
  | cons current retired =>
      show Option.filter _ (some current.toSegment) = _
      rw [Option.filter_some]
      rfl

theorem refill_view (exclusive : Exclusive allocator) (thread : ThreadId) :
    (allocator.refill thread).map view = allocator.view.refill thread := by
  unfold MirrorAllocator.refill ComputeNodeAllocator.refill
  rw [view_refillSource]
  by_cases room : allocator.trackerAvailable pageGroupNo = true
  · obtain ⟨current, retired, isCurrent, _⟩ := trackerAvailable_iff.mp room
    rw [if_pos room, if_pos room, view_current isCurrent, Option.map_some, Option.map_some]
    exact congrArg some (view_refilled exclusive (offerPages_refillsAs pageGroupNo isCurrent))
  · rw [if_neg room, if_neg room]
    rfl

theorem refillSinglePage_view (exclusive : Exclusive allocator) (isGroup : allocator.threadInfo thread = some group)
    (allocationClass : AllocationClass) :
    (allocator.refillSinglePage thread group allocationClass).map view =
      allocator.view.refillSinglePage thread (allocator.pages group) allocationClass := by
  unfold MirrorAllocator.refillSinglePage ComputeNodeAllocator.refillSinglePage
  rw [view_refillSource]
  by_cases room : allocator.trackerAvailable pageGroupNo = true
  · obtain ⟨current, retired, isCurrent, _⟩ := trackerAvailable_iff.mp room
    rw [if_pos room, if_pos room, view_current isCurrent, Option.map_some, Option.map_some]
    exact congrArg some (view_refilled exclusive
      (refillPages_refillsAs group isCurrent (exclusive.bounded thread group isGroup)))
  · rw [if_neg room, if_neg room]
    rfl

/-! ### One call -/

/-- Mirrors stay on their pages. -/
structure Extends (before after : MirrorAllocator) : Prop where
  made : before.made ≤ after.made
  bases : ∀ pointer, pointer < before.made →
    (after.mirror pointer).pageBase = (before.mirror pointer).pageBase

theorem Extends.refl (allocator : MirrorAllocator) : Extends allocator allocator := ⟨le_rfl, fun _ _ => rfl⟩

theorem Extends.trans {first second third : MirrorAllocator} (earlier : Extends first second)
    (later : Extends second third) : Extends first third where
  made := earlier.made.trans later.made
  bases pointer isBelow := by
    rw [later.bases pointer (isBelow.trans_le earlier.made), earlier.bases pointer isBelow]

theorem Renewed.extends (renewed : Renewed allocator next group result) (thread : ThreadId) :
    Extends allocator (next.setGroup thread result) where
  made := renewed.made
  bases pointer isBelow := congrArg PageMirror.pageBase (renewed.kept pointer isBelow)

/-- What every call keeps. -/
structure Placed (mem : Nat) (allocator : MirrorAllocator) : Prop where
  tracked : Tracked mem allocator
  exclusive : Exclusive allocator

theorem Tracked.offerPages (tracked : Tracked mem allocator) (room : allocator.trackerAvailable count = true) :
    Tracked mem (offerPages count allocator).2 := by
  induction count generalizing allocator with
  | zero => exact tracked
  | succ count inductionHypothesis =>
      rw [offerPages_succ]
      exact inductionHypothesis (tracked.offerPage (trackerAvailable_one room)) (trackerAvailable_offerPage room)

theorem Tracked.refillPages (tracked : Tracked mem allocator)
    (room : allocator.trackerAvailable group.length = true) :
    Tracked mem (refillPages allocationClass group allocator).2 := by
  induction group generalizing allocator with
  | nil => exact tracked
  | cons first rest inductionHypothesis =>
      by_cases isFull : (allocator.mirror first).allocationClass = allocationClass ∧
          (allocator.mirror first).available = false
      · rw [refillPages_full isFull]
        apply inductionHypothesis
        · exact (tracked.offerPage (trackerAvailable_one room)).setMirror rfl
        · exact trackerAvailable_offerPage room
      · unfold MirrorAllocator.refillPages
        rw [if_neg isFull]
        apply inductionHypothesis tracked
        obtain ⟨current, retired, isCurrent, enough⟩ := trackerAvailable_iff.mp room
        exact trackerAvailable_iff.mpr ⟨current, retired, isCurrent, (Nat.le_succ _).trans enough⟩

theorem setGroup_isSome (allocator : MirrorAllocator) (thread : ThreadId) (group : List MirrorPointer) :
    ((allocator.setGroup thread group).threadInfo thread).isSome = true := by
  show (Function.update allocator.threadInfo thread (some group) thread).isSome = true
  rw [Function.update_self]
  rfl

theorem Placed.refill (placed : Placed mem allocator) (refilled : allocator.refill thread = some next) :
    Placed mem next ∧ Extends allocator next ∧ (next.threadInfo thread).isSome = true := by
  unfold MirrorAllocator.refill at refilled
  split at refilled
  next room =>
    obtain ⟨current, retired, isCurrent, _⟩ := trackerAvailable_iff.mp room
    have refills := offerPages_refillsAs pageGroupNo isCurrent
    have length : (MirrorAllocator.offerPages pageGroupNo allocator).1.length = pageGroupNo := by
      have pages := congrArg List.length refills.pages
      rw [length_offerPages] at pages
      exact (List.length_map _).symm.trans pages
    rw [← Option.some.inj refilled]
    exact ⟨⟨(placed.tracked.offerPages room).setGroup thread _,
      placed.exclusive.renewed refills.renewed (Or.inl rfl) length⟩, refills.renewed.extends thread,
      setGroup_isSome _ thread _⟩
  next => cases refilled

theorem Placed.refillSinglePage (placed : Placed mem allocator)
    (isGroup : allocator.threadInfo thread = some group)
    (refilled : allocator.refillSinglePage thread group allocationClass = some next) :
    Placed mem next ∧ Extends allocator next := by
  unfold MirrorAllocator.refillSinglePage at refilled
  split at refilled
  next room =>
    obtain ⟨current, retired, isCurrent, _⟩ := trackerAvailable_iff.mp room
    have isEight := placed.exclusive.length thread group isGroup
    have refills := @refillPages_refillsAs _ allocationClass _ _ group isCurrent
      (placed.exclusive.bounded thread group isGroup)
    have length : (MirrorAllocator.refillPages allocationClass group allocator).1.length = pageGroupNo := by
      have pages := congrArg List.length refills.pages
      rw [length_refillPages] at pages
      exact (List.length_map _).symm.trans (pages.trans ((List.length_map _).trans isEight))
    rw [← Option.some.inj refilled]
    exact ⟨⟨(placed.tracked.refillPages (isEight ▸ room)).setGroup thread _,
      placed.exclusive.renewed refills.renewed (Or.inr isGroup) length⟩, refills.renewed.extends thread⟩
  next => cases refilled

theorem Placed.register (placed : Placed mem allocator) (registered : allocator.register thread = some next) :
    Placed mem next ∧ Extends allocator next ∧ (next.threadInfo thread).isSome = true := by
  unfold MirrorAllocator.register at registered
  split at registered
  next => exact placed.refill registered
  next has =>
    rw [← Option.some.inj registered]
    refine ⟨placed, Extends.refl allocator, ?_⟩
    rw [Option.isSome_iff_ne_none, Ne, ← Option.isNone_iff_eq_none]
    exact has

theorem prepare_eq (isGroup : allocator.threadInfo thread = some group) :
    allocator.prepare thread allocationClass = match (allocator.pages group).available allocationClass with
      | .ok => some allocator
      | .emptyPage => allocator.refillSinglePage thread group allocationClass
      | .emptyPageGroup => allocator.refill thread := by
  unfold prepare
  rw [isGroup]
  rfl

theorem Placed.prepare (placed : Placed mem allocator) (isGroup : allocator.threadInfo thread = some group)
    (prepared : allocator.prepare thread allocationClass = some next) :
    Placed mem next ∧ Extends allocator next := by
  rw [prepare_eq isGroup] at prepared
  split at prepared
  next =>
    rw [← Option.some.inj prepared]
    exact ⟨placed, Extends.refl allocator⟩
  next => exact placed.refillSinglePage isGroup prepared
  next =>
    obtain ⟨after, extended, _⟩ := placed.refill prepared
    exact ⟨after, extended⟩

/-- What `PageGroup::allocate` does: nothing, or it takes a chunk from a usable page. -/
theorem allocateIn_cases (allocationClass : AllocationClass) (group : List MirrorPointer)
    (allocator : MirrorAllocator) :
    allocateIn allocationClass group allocator = (none, allocator) ∨
      ∃ pointer ∈ group, PageGroup.usable allocationClass (allocator.mirror pointer) = true ∧
        allocateIn allocationClass group allocator =
          (some (PageGroup.takeChunk allocationClass (allocator.mirror pointer)).1,
            allocator.setMirror pointer (PageGroup.takeChunk allocationClass (allocator.mirror pointer)).2) := by
  induction group with
  | nil => exact Or.inl rfl
  | cons first rest inductionHypothesis =>
      unfold allocateIn
      by_cases usable : PageGroup.usable allocationClass (allocator.mirror first) = true
      · rw [if_pos usable]
        exact Or.inr ⟨first, List.mem_cons_self, usable, rfl⟩
      · rw [if_neg usable]
        rcases inductionHypothesis with isNone | ⟨pointer, isMember, isUsable, isTaken⟩
        · exact Or.inl isNone
        · exact Or.inr ⟨pointer, List.mem_cons_of_mem _ isMember, isUsable, isTaken⟩

theorem takeChunk_pageBase (allocationClass : AllocationClass) (page : PageMirror) :
    (PageGroup.takeChunk allocationClass page).2.pageBase = page.pageBase := by
  unfold PageGroup.takeChunk
  split
  next => rfl
  next => rfl

/-- A chunk begins in its page. -/
theorem takeChunk_inPage (sized : allocationClass.Sized) (usable : PageGroup.usable allocationClass page = true) :
    InPage page.pageBase (PageGroup.takeChunk allocationClass page).1 := by
  unfold PageGroup.takeChunk
  split
  next isClass =>
    have available : page.available = true := by
      rcases Bool.or_eq_true_iff.mp usable with isUnknown | isUsable
      · rw [isClass] at isUnknown
        rw [eq_of_beq isUnknown] at sized
        exact absurd sized (by unfold AllocationClass.Sized; decide)
      · exact (Bool.and_eq_true_iff.mp isUsable).2
    have slot : page.offset.toNat < memoryPageSize / page.allocationClass.size := of_decide_eq_true available
    constructor
    · exact Nat.le_add_right _ _
    · exact Nat.add_lt_add_left (Nat.lt_of_lt_of_le (Nat.mul_lt_mul_of_pos_right slot (Nat.pos_of_ne_zero (by
        intro isZero
        rw [isZero, Nat.div_zero] at slot
        exact absurd slot (Nat.not_lt_zero _)))) (Nat.div_mul_le_self _ _)) _
  next =>
    constructor
    · exact Nat.le_add_right _ _
    · show page.pageBase + 0 * allocationClass.size < page.pageBase + memoryPageSize
      rw [Nat.zero_mul]
      exact Nat.add_lt_add_left (by decide) _

/-- The chunk of a call lies in a page that has a mirror. -/
structure Allocated (mem : Nat) (before : MirrorAllocator) (chunk : Option RemotePointer)
    (after : MirrorAllocator) : Prop where
  placed : Placed mem after
  extended : Extends before after
  inPage : ∀ remote, chunk = some remote → ∃ pointer, pointer < after.made ∧
    InPage (after.mirror pointer).pageBase remote

theorem Placed.setMirror (placed : Placed mem allocator)
    (sameBase : page.pageBase = (allocator.mirror pointer).pageBase) :
    Placed mem (allocator.setMirror pointer page) where
  tracked := placed.tracked.setMirror sameBase
  exclusive := ⟨placed.exclusive.length, placed.exclusive.bounded, placed.exclusive.nodup, placed.exclusive.threads⟩

theorem Placed.allocateIn (placed : Placed mem allocator) (isGroup : allocator.threadInfo thread = some group)
    (sized : allocationClass.Sized) :
    Allocated mem allocator (allocateIn allocationClass group allocator).1
      (allocateIn allocationClass group allocator).2 := by
  rcases allocateIn_cases allocationClass group allocator with isNone | ⟨pointer, isMember, usable, isTaken⟩
  · rw [isNone]
    exact ⟨placed, Extends.refl allocator, fun remote isChunk => nomatch isChunk⟩
  · have sameBase := takeChunk_pageBase allocationClass (allocator.mirror pointer)
    rw [isTaken]
    refine ⟨placed.setMirror sameBase, ⟨le_rfl, fun other _ => pageBase_setMirror sameBase other⟩, ?_⟩
    intro remote isChunk
    refine ⟨pointer, placed.exclusive.bounded thread group isGroup pointer isMember, ?_⟩
    rw [pageBase_setMirror sameBase, ← Option.some.inj isChunk]
    exact takeChunk_inPage sized usable

theorem Placed.allocate (placed : Placed mem allocator) (thread : ThreadId) (size : Nat) :
    Allocated mem allocator (allocator.allocate thread size).1 (allocator.allocate thread size).2 := by
  unfold MirrorAllocator.allocate
  split
  next => exact ⟨placed, Extends.refl allocator, fun remote isChunk => nomatch isChunk⟩
  next registered isRegistered =>
    obtain ⟨placedThen, extendedThen, hasGroup⟩ := placed.register isRegistered
    obtain ⟨group, isGroup⟩ := Option.isSome_iff_exists.mp hasGroup
    split
    next => exact ⟨placedThen, extendedThen, fun remote isChunk => nomatch isChunk⟩
    next prepared isPrepared =>
      obtain ⟨placedLater, extendedLater⟩ := placedThen.prepare isGroup isPrepared
      cases isLater : prepared.threadInfo thread with
      | none => exact ⟨placedLater, extendedThen.trans extendedLater, fun remote isChunk => nomatch isChunk⟩
      | some later =>
          have allocated := placedLater.allocateIn isLater (getClass_sized size)
          exact ⟨allocated.placed, (extendedThen.trans extendedLater).trans allocated.extended, allocated.inPage⟩

/-! ### A call on pages is a call on mirrors -/

theorem pages_setMirror_of_notMem (isOther : pointer ∉ group) (page : PageMirror) :
    (allocator.setMirror pointer page).pages group = allocator.pages group := by
  apply List.map_congr_left
  intro other isMember
  apply Function.update_of_ne
  intro same
  rw [same] at isMember
  exact isOther isMember

theorem allocateIn_pages (nodup : group.Nodup) :
    ((allocateIn allocationClass group allocator).1, (allocateIn allocationClass group allocator).2.pages group) =
      PageGroup.allocate allocationClass (allocator.pages group) := by
  induction group with
  | nil => rfl
  | cons first rest inductionHypothesis =>
      obtain ⟨isFirst, restNodup⟩ := List.nodup_cons.mp nodup
      have later := inductionHypothesis restNodup
      show _ = PageGroup.allocate allocationClass (allocator.mirror first :: allocator.pages rest)
      unfold allocateIn PageGroup.allocate
      by_cases usable : PageGroup.usable allocationClass (allocator.mirror first) = true
      · rw [if_pos usable, if_pos usable]
        show (_, _ :: pages _ rest) = _
        rw [pages_setMirror_of_notMem isFirst]
        congr 2
        exact Function.update_self first _ allocator.mirror
      · rw [if_neg usable, if_neg usable, ← later]
        show (_, _ :: pages _ rest) = (_, _ :: pages _ rest)
        congr 2
        rcases allocateIn_cases allocationClass rest allocator with isNone | ⟨pointer, isMember, _, isTaken⟩
        · rw [isNone]
        · rw [isTaken]
          apply Function.update_of_ne
          intro same
          rw [same] at isFirst
          exact isFirst isMember

theorem allocateIn_view (exclusive : Exclusive allocator) (isGroup : allocator.threadInfo thread = some group)
    (allocationClass : AllocationClass) :
    ((allocateIn allocationClass group allocator).1, (allocateIn allocationClass group allocator).2.view) =
      allocator.view.allocateFrom thread allocationClass := by
  have taken := @allocateIn_pages allocator group allocationClass (exclusive.nodup thread group isGroup)
  have isViewed : allocator.view.threadInfo thread = some (allocator.pages group) := by
    show (allocator.threadInfo thread).map _ = _
    rw [isGroup]
    rfl
  unfold ComputeNodeAllocator.allocateFrom
  rw [isViewed]
  show _ = ((PageGroup.allocate allocationClass (allocator.pages group)).1,
    allocator.view.setGroup thread (PageGroup.allocate allocationClass (allocator.pages group)).2)
  rw [← taken]
  congr 1
  have others : ∀ other otherGroup, other ≠ thread → allocator.threadInfo other = some otherGroup →
      (allocateIn allocationClass group allocator).2.pages otherGroup = allocator.pages otherGroup := by
    intro other otherGroup differs isOther
    rcases allocateIn_cases allocationClass group allocator with isNone | ⟨pointer, isMember, _, isTaken⟩
    · rw [isNone]
    · rw [isTaken]
      apply pages_setMirror_of_notMem
      exact exclusive.threads thread other group otherGroup (Ne.symm differs) isGroup isOther pointer isMember
  have same : (allocateIn allocationClass group allocator).2.segments = allocator.segments ∧
      (allocateIn allocationClass group allocator).2.threadInfo = allocator.threadInfo := by
    rcases allocateIn_cases allocationClass group allocator with isNone | ⟨_, _, _, isTaken⟩
    · rw [isNone]
      exact ⟨rfl, rfl⟩
    · rw [isTaken]
      exact ⟨rfl, rfl⟩
  unfold view ComputeNodeAllocator.setGroup
  rw [same.1, same.2]
  congr 1
  funext other
  by_cases isThread : other = thread
  · rw [isThread, Function.update_self, isGroup]
    rfl
  · rw [Function.update_of_ne isThread]
    show (allocator.threadInfo other).map _ = (allocator.threadInfo other).map _
    cases isOther : allocator.threadInfo other with
    | none => rfl
    | some otherGroup => exact congrArg some (others other otherGroup isThread isOther)

theorem register_view (exclusive : Exclusive allocator) (thread : ThreadId) :
    (allocator.register thread).map view = allocator.view.register thread := by
  unfold MirrorAllocator.register ComputeNodeAllocator.register
  rw [← refill_view exclusive]
  show _ = if ((allocator.threadInfo thread).map allocator.pages).isNone = true then _ else _
  rw [Option.isNone_map]
  split
  next => rfl
  next => rfl

theorem prepare_view (exclusive : Exclusive allocator) (isGroup : allocator.threadInfo thread = some group)
    (allocationClass : AllocationClass) :
    (allocator.prepare thread allocationClass).map view = allocator.view.prepare thread allocationClass := by
  have isViewed : allocator.view.threadInfo thread = some (allocator.pages group) := by
    show (allocator.threadInfo thread).map _ = _
    rw [isGroup]
    rfl
  rw [prepare_eq isGroup, ComputeNodeAllocator.prepare_eq isViewed, ← refill_view exclusive,
    ← refillSinglePage_view exclusive isGroup]
  cases (allocator.pages group).available allocationClass with
  | ok => rfl
  | emptyPage => rfl
  | emptyPageGroup => rfl

/-- `allocate` on mirrors refines `allocate` on the pages of the groups. -/
theorem allocate_view (placed : Placed mem allocator) (thread : ThreadId) (size : Nat) :
    ((allocator.allocate thread size).1, (allocator.allocate thread size).2.view) =
      allocator.view.allocate thread size := by
  have isRegister := register_view placed.exclusive thread
  rw [ComputeNodeAllocator.allocate_eq_phases, ← isRegister]
  cases isRegistered : allocator.register thread with
  | none =>
      unfold MirrorAllocator.allocate
      rw [isRegistered]
      rfl
  | some registered =>
      have isAllocate : allocator.allocate thread size =
          match registered.prepare thread (getClass size) with
          | none => (none, registered)
          | some prepared => allocateIn (getClass size) ((prepared.threadInfo thread).getD []) prepared := by
        unfold MirrorAllocator.allocate
        rw [isRegistered]
      rw [isAllocate]
      obtain ⟨placedThen, _, hasGroup⟩ := placed.register isRegistered
      obtain ⟨group, isGroup⟩ := Option.isSome_iff_exists.mp hasGroup
      have isPrepare := prepare_view placedThen.exclusive isGroup (getClass size)
      simp only [Option.map_some]
      rw [← isPrepare]
      cases isPrepared : registered.prepare thread (getClass size) with
      | none => rfl
      | some prepared =>
          obtain ⟨placedLater, _⟩ := placedThen.prepare isGroup isPrepared
          show ((allocateIn (getClass size) ((prepared.threadInfo thread).getD []) prepared).1,
            (allocateIn (getClass size) ((prepared.threadInfo thread).getD []) prepared).2.view) =
              prepared.view.allocateFrom thread (getClass size)
          cases isLater : prepared.threadInfo thread with
          | none =>
              have isViewed : prepared.view.threadInfo thread = none := by
                show (prepared.threadInfo thread).map _ = _
                rw [isLater]
                rfl
              unfold ComputeNodeAllocator.allocateFrom
              rw [isViewed]
              rfl
          | some later => exact allocateIn_view placedLater.exclusive isLater (getClass size)

end MirrorAllocator

end DiStore.Memory
