import DiStore.Memory.ComputeNodeAllocator
import Mathlib.Data.List.Basic
import Mathlib.Tactic.Ring

/-!
Contract: chunks of remote memory are handed out once.

Owns: the addresses a compute node can still hand out (`RemoteHeap.Reserve`), the
soundness invariant of the allocator, and the two facts every client uses: an
allocation comes from the reserve, and leaves the reserve.

A page of 16-byte chunks has 256 of them and counts them in one byte, so the facts
are for larger sizes; the data layer only asks for those.
-/

set_option autoImplicit false

namespace DiStore.Memory

open DiStore.Concurrency

variable {allocationClass : AllocationClass} {page : PageMirror} {group result : PageGroup}
variable {segment rest : Segment} {address : Nat}

/-! ### Who may hand out an address -/

/-- The address lies in the page at `base`. -/
def InPage (base address : Nat) : Prop := base ≤ address ∧ address < base + memoryPageSize

/-- Two pages share no address. -/
def PagesApart (left right : Nat) : Prop := ∀ address, InPage left address → ¬ InPage right address

theorem PagesApart.symm {left right : Nat} (apart : PagesApart left right) : PagesApart right left :=
  fun address inRight inLeft => apart address inLeft inRight

/-- Not yet handed out by the page: all of a page without a class. -/
def PageMirror.Remaining (page : PageMirror) (address : Nat) : Prop :=
  InPage page.pageBase address ∧
    (page.allocationClass = .chunkUnknown ∨
      page.pageBase + page.offset.toNat * page.allocationClass.size ≤ address)

/-- In a page that the segment has not offered yet. -/
def Segment.Unoffered (segment : Segment) (address : Nat) : Prop :=
  segment.seg + segment.offset * memoryPageSize ≤ address ∧
    address < segment.seg + (segment.offset + segment.availablePages) * memoryPageSize

/-- In a segment that has not been asked for yet. -/
def SegmentSource.Ahead (source : SegmentSource) (offered address : Nat) : Prop :=
  ∃ index, offered ≤ index ∧ source.segment index ≤ address ∧
    address < source.segment index + segmentSize

namespace RemoteHeap

variable (source : SegmentSource) (heap : RemoteHeap)

/-- Everything the node can still hand out. -/
def Reserve (address : Nat) : Prop :=
  (∃ segment, heap.allocator.current = some segment ∧ segment.Unoffered address) ∨
    (∃ thread group, heap.allocator.threadInfo thread = some group ∧
      ∃ page ∈ group, page.Remaining address) ∨
    source.Ahead heap.offered address

/-- No address has two owners. -/
structure Sound : Prop where
  current : ∀ segment, heap.allocator.current = some segment →
    (∃ index < heap.offered, segment.seg = source.segment index) ∧
      (segment.offset + segment.availablePages) * memoryPageSize = segmentSize
  groups : ∀ thread group, heap.allocator.threadInfo thread = some group →
    group.length = pageGroupNo ∧ (group.map PageMirror.pageBase).Pairwise PagesApart
  threads : ∀ left right leftGroup rightGroup, left ≠ right →
    heap.allocator.threadInfo left = some leftGroup →
    heap.allocator.threadInfo right = some rightGroup →
    ∀ leftPage ∈ leftGroup, ∀ rightPage ∈ rightGroup, PagesApart leftPage.pageBase rightPage.pageBase
  taken : ∀ thread group, heap.allocator.threadInfo thread = some group → ∀ page ∈ group,
    0 < page.pageBase ∧ ∀ address, InPage page.pageBase address →
      (∀ segment, heap.allocator.current = some segment → ¬ segment.Unoffered address) ∧
        ¬ source.Ahead heap.offered address

theorem sound_empty : Sound source empty where
  current _ isCurrent := by cases isCurrent
  groups _ _ isGroup := by cases isGroup
  threads _ _ _ _ _ isGroup := by cases isGroup
  taken _ _ isGroup := by cases isGroup

end RemoteHeap

/-! ### Offering pages -/

/-- `result` keeps pages of `group` and adds pages that `segment` offered on its way
to `rest`. -/
structure Refilled (group : PageGroup) (segment : Segment) (result : PageGroup) (rest : Segment) :
    Prop where
  seg : rest.seg = segment.seg
  total : rest.offset + rest.availablePages = segment.offset + segment.availablePages
  progress : segment.offset ≤ rest.offset
  pages : ∀ page ∈ result, page ∈ group ∨
    ∃ place, segment.offset ≤ place ∧ place < rest.offset ∧
      page.pageBase = segment.seg + place * memoryPageSize
  apart : (group.map PageMirror.pageBase).Pairwise PagesApart →
    (∀ page ∈ group, ∀ address, InPage page.pageBase address → ¬ segment.Unoffered address) →
    (result.map PageMirror.pageBase).Pairwise PagesApart

theorem offerPages_refilled (count : Nat) (segment : Segment) (room : count ≤ segment.availablePages) :
    Refilled [] segment (segment.offerPages count).1 (segment.offerPages count).2 := by
  induction count generalizing segment with
  | zero => exact ⟨rfl, rfl, le_rfl, fun _ isMember => absurd isMember List.not_mem_nil,
    fun _ _ => List.Pairwise.nil⟩
  | succ count ih =>
    have later := ih segment.offerPage.2 (by simp only [Segment.offerPage]; omega)
    simp only [Segment.offerPages]
    refine ⟨later.seg, ?_, ?_, ?_, ?_⟩
    · have total := later.total
      simp only [Segment.offerPage] at total ⊢
      omega
    · have progress := later.progress
      simp only [Segment.offerPage] at progress ⊢
      omega
    · intro page isMember
      rcases List.mem_cons.mp isMember with rfl | inLater
      · have progress := later.progress
        simp only [Segment.offerPage] at progress ⊢
        exact .inr ⟨segment.offset, le_rfl, by omega, rfl⟩
      · obtain isOld | ⟨place, low, high, isBase⟩ := later.pages page inLater
        · cases isOld
        · exact .inr ⟨place, by simp only [Segment.offerPage] at low; omega, high, isBase⟩
    · intro _ _
      rw [List.map_cons, List.pairwise_cons]
      refine ⟨?_, later.apart List.Pairwise.nil fun _ isMember => by cases isMember⟩
      intro base isBase address inFirst inBase
      obtain ⟨page, inLater, rfl⟩ := List.mem_map.mp isBase
      obtain isOld | ⟨place, low, high, isPlace⟩ := later.pages page inLater
      · cases isOld
      · simp only [Segment.offerPage, PageMirror.cleared, InPage, isPlace] at low inFirst inBase
        have := Nat.mul_le_mul_right memoryPageSize low
        rw [Nat.add_mul] at this
        omega

theorem refillPages_refilled (allocationClass : AllocationClass) (group : PageGroup) (segment : Segment)
    (room : group.length ≤ segment.availablePages) :
    Refilled group segment (Segment.refillPages allocationClass group segment).1
      (Segment.refillPages allocationClass group segment).2 := by
  induction group generalizing segment with
  | nil => exact ⟨rfl, rfl, le_rfl, fun _ isMember => .inl isMember, fun pairwise _ => pairwise⟩
  | cons first pages ih =>
    simp only [Segment.refillPages]
    rw [List.length_cons] at room
    split
    next =>
      -- the used-up page is replaced by the next page of the segment
      have later := ih segment.offerPage.2 (by simp only [Segment.offerPage]; omega)
      refine ⟨later.seg, ?_, ?_, ?_, ?_⟩
      · have total := later.total
        simp only [Segment.offerPage] at total ⊢
        omega
      · have progress := later.progress
        simp only [Segment.offerPage] at progress ⊢
        omega
      · intro page isMember
        rcases List.mem_cons.mp isMember with rfl | inLater
        · have progress := later.progress
          simp only [Segment.offerPage] at progress ⊢
          exact .inr ⟨segment.offset, le_rfl, by omega, rfl⟩
        · obtain isOld | ⟨place, low, high, isBase⟩ := later.pages page inLater
          · exact .inl (List.mem_cons_of_mem _ isOld)
          · exact .inr ⟨place, by simp only [Segment.offerPage] at low; omega, high, isBase⟩
      · intro pairwise outside
        rw [List.map_cons, List.pairwise_cons] at pairwise ⊢
        refine ⟨?_, later.apart pairwise.2 fun page isMember address inPage unoffered => ?_⟩
        · intro base isBase address inFirst inBase
          obtain ⟨page, inLater, rfl⟩ := List.mem_map.mp isBase
          have unoffered : segment.Unoffered address := by
            simp only [Segment.offerPage, PageMirror.cleared, PageMirror.descInitialize, InPage] at inFirst
            have := Nat.mul_le_mul_right memoryPageSize
              (show segment.offset + 1 ≤ segment.offset + segment.availablePages by omega)
            rw [Nat.add_mul] at this
            exact ⟨inFirst.1, by omega⟩
          obtain isOld | ⟨place, low, high, isPlace⟩ := later.pages page inLater
          · exact outside page (List.mem_cons_of_mem _ isOld) address inBase unoffered
          · simp only [Segment.offerPage, PageMirror.cleared, PageMirror.descInitialize, InPage, isPlace]
              at low inFirst inBase
            have := Nat.mul_le_mul_right memoryPageSize low
            rw [Nat.add_mul] at this
            omega
        · refine outside page (List.mem_cons_of_mem _ isMember) address inPage ?_
          simp only [Segment.Unoffered, Segment.offerPage] at unoffered ⊢
          have total : segment.offset + 1 + (segment.availablePages - 1) =
              segment.offset + segment.availablePages := by omega
          rw [total, Nat.add_mul] at unoffered
          omega
    next =>
      have later := ih segment (by omega)
      refine ⟨later.seg, later.total, later.progress, ?_, ?_⟩
      · intro page isMember
        rcases List.mem_cons.mp isMember with rfl | inLater
        · exact .inl List.mem_cons_self
        · exact (later.pages page inLater).imp_left (List.mem_cons_of_mem _)
      · intro pairwise outside
        rw [List.map_cons, List.pairwise_cons] at pairwise ⊢
        refine ⟨?_, later.apart pairwise.2 fun page isMember =>
          outside page (List.mem_cons_of_mem _ isMember)⟩
        intro base isBase address inFirst inBase
        obtain ⟨page, inLater, rfl⟩ := List.mem_map.mp isBase
        obtain isOld | ⟨place, low, high, isPlace⟩ := later.pages page inLater
        · exact pairwise.1 page.pageBase (List.mem_map_of_mem isOld) address inFirst inBase
        · refine outside first List.mem_cons_self address inFirst ?_
          rw [InPage, isPlace] at inBase
          have lower := Nat.mul_le_mul_right memoryPageSize low
          have total := later.total
          have upper := Nat.mul_le_mul_right memoryPageSize
            (show place + 1 ≤ segment.offset + segment.availablePages by omega)
          rw [Nat.add_mul] at upper
          exact ⟨by omega, by omega⟩

@[simp] theorem length_offerPages (count : Nat) (segment : Segment) :
    (segment.offerPages count).1.length = count := by
  induction count generalizing segment with
  | zero => rfl
  | succ count ih => simp [Segment.offerPages, ih]

@[simp] theorem length_refillPages (allocationClass : AllocationClass) (group : PageGroup)
    (segment : Segment) :
    (Segment.refillPages allocationClass group segment).1.length = group.length := by
  induction group generalizing segment with
  | nil => rfl
  | cons first pages ih =>
    simp only [Segment.refillPages]
    split <;> simp [ih]

/-- Pages of a refill come from the group or from what the segment had left. -/
theorem Refilled.unoffered (refilled : Refilled group segment result rest)
    (unoffered : rest.Unoffered address) : segment.Unoffered address := by
  obtain ⟨seg, total, progress, _, _⟩ := refilled
  have := Nat.mul_le_mul_right memoryPageSize progress
  rw [Segment.Unoffered, seg, total] at unoffered
  exact ⟨by omega, unoffered.2⟩

theorem Refilled.page_cases (refilled : Refilled group segment result rest) (isMember : page ∈ result) :
    page ∈ group ∨ ∀ address, InPage page.pageBase address →
      segment.Unoffered address ∧ ¬ rest.Unoffered address := by
  obtain isOld | ⟨place, low, high, isPlace⟩ := refilled.pages page isMember
  · exact .inl isOld
  · refine .inr fun address inPage => ?_
    rw [InPage, isPlace] at inPage
    have lower := Nat.mul_le_mul_right memoryPageSize low
    have total := refilled.total
    have upper := Nat.mul_le_mul_right memoryPageSize
      (show place + 1 ≤ segment.offset + segment.availablePages by omega)
    have beyond := Nat.mul_le_mul_right memoryPageSize (show place + 1 ≤ rest.offset by omega)
    rw [Nat.add_mul] at upper beyond
    refine ⟨⟨by omega, by omega⟩, fun unoffered => ?_⟩
    have := unoffered.1
    rw [refilled.seg] at this
    omega

namespace RemoteHeap

variable {source : SegmentSource} {heap : RemoteHeap} {thread : ThreadId}

/-- Installing a refilled group keeps the allocator sound and adds nothing to the
reserve. -/
theorem Sound.install (sound : Sound source heap) (thread : ThreadId) (isCurrent : heap.allocator.current = some segment)
    (kept : ∀ page ∈ group, ∃ old, heap.allocator.threadInfo thread = some old ∧ page ∈ old)
    (keptApart : (group.map PageMirror.pageBase).Pairwise PagesApart)
    (length : result.length = pageGroupNo) (refilled : Refilled group segment result rest) :
    Sound source ⟨{ heap.allocator.setGroup thread result with current := some rest }, heap.offered⟩ ∧
      ∀ address, Reserve source
          ⟨{ heap.allocator.setGroup thread result with current := some rest }, heap.offered⟩ address →
        Reserve source heap address := by
  obtain ⟨⟨place, placeLt, isSeg⟩, total⟩ := sound.current segment isCurrent
  have oldOutside : ∀ page ∈ group, ∀ address, InPage page.pageBase address →
      ¬ segment.Unoffered address := by
    intro page isMember address inPage
    obtain ⟨old, isOld, inOld⟩ := kept page isMember
    exact ((sound.taken thread old isOld page inOld).2 address inPage).1 segment isCurrent
  have otherGroup : ∀ other otherGroup, other ≠ thread →
      Function.update heap.allocator.threadInfo thread (some result) other = some otherGroup →
      heap.allocator.threadInfo other = some otherGroup := by
    intro other otherGroup differs isGroup
    rwa [Function.update_of_ne differs] at isGroup
  have ownGroup : ∀ own, Function.update heap.allocator.threadInfo thread (some result) thread = some own →
      own = result := by
    intro own isOwn
    rw [Function.update_self] at isOwn
    exact (Option.some.inj isOwn).symm
  -- An address that the segment still has lies in its segment, so not ahead.
  have notAhead : ∀ address, segment.Unoffered address → ¬ source.Ahead heap.offered address := by
    rintro address unoffered ⟨index, ahead, low, high⟩
    have apart := source.apart place index (by omega)
    have upper := unoffered.2
    rw [total] at upper
    have lower := unoffered.1
    omega
  have freshPage : ∀ page ∈ result, page ∉ group → ∀ address, InPage page.pageBase address →
      segment.Unoffered address ∧ ¬ rest.Unoffered address := by
    intro page isMember isNew
    rcases refilled.page_cases isMember with isOld | covers
    · exact absurd isOld isNew
    · exact covers
  have crossApart : ∀ other otherGroup, other ≠ thread →
      heap.allocator.threadInfo other = some otherGroup → ∀ page ∈ result, ∀ otherPage ∈ otherGroup,
      PagesApart page.pageBase otherPage.pageBase := by
    intro other otherGroup differs isGroup page isMember otherPage inOther address inPage inOtherPage
    by_cases isOld : page ∈ group
    · obtain ⟨old, hasOld, inOld⟩ := kept page isOld
      exact sound.threads thread other old otherGroup (Ne.symm differs) hasOld isGroup page inOld otherPage
        inOther address inPage inOtherPage
    · exact ((sound.taken other otherGroup isGroup otherPage inOther).2 address inOtherPage).1
        segment isCurrent (freshPage page isMember isOld address inPage).1
  refine ⟨?_, ?_⟩
  · constructor
    case current =>
      intro other isOther
      obtain rfl := Option.some.inj isOther
      exact ⟨⟨place, placeLt, refilled.seg.trans isSeg⟩, by rw [refilled.total]; exact total⟩
    case groups =>
      intro other otherGroup' isGroup
      by_cases same : other = thread
      · subst same
        rw [ownGroup otherGroup' isGroup]
        exact ⟨length, refilled.apart keptApart oldOutside⟩
      · exact sound.groups other otherGroup' (otherGroup other otherGroup' same isGroup)
    case threads =>
      intro left right leftGroup rightGroup differs isLeft isRight leftPage inLeft rightPage inRight
      by_cases leftOwn : left = thread
      · subst leftOwn
        rw [ownGroup leftGroup isLeft] at inLeft
        exact crossApart right rightGroup (Ne.symm differs)
          (otherGroup right rightGroup (Ne.symm differs) isRight) leftPage inLeft rightPage inRight
      · by_cases rightOwn : right = thread
        · subst rightOwn
          rw [ownGroup rightGroup isRight] at inRight
          exact (crossApart left leftGroup differs (otherGroup left leftGroup differs isLeft) rightPage
            inRight leftPage inLeft).symm
        · exact sound.threads left right leftGroup rightGroup differs
            (otherGroup left leftGroup leftOwn isLeft) (otherGroup right rightGroup rightOwn isRight)
            leftPage inLeft rightPage inRight
    case taken =>
      intro other otherGroup' isGroup page isMember
      have outside : (∃ old, heap.allocator.threadInfo other = some old ∧ page ∈ old) ∨
          (page ∈ result ∧ page ∉ group) := by
        by_cases same : other = thread
        · subst same
          rw [ownGroup otherGroup' isGroup] at isMember
          by_cases isOld : page ∈ group
          · exact .inl (kept page isOld)
          · exact .inr ⟨isMember, isOld⟩
        · exact .inl ⟨otherGroup', otherGroup other otherGroup' same isGroup, isMember⟩
      rcases outside with ⟨old, isOld, inOld⟩ | ⟨inResult, isNew⟩
      · obtain ⟨positive, free⟩ := sound.taken other old isOld page inOld
        refine ⟨positive, fun address inPage => ⟨fun other' isOther unoffered => ?_, (free address inPage).2⟩⟩
        obtain rfl := Option.some.inj isOther
        exact (free address inPage).1 segment isCurrent (refilled.unoffered unoffered)
      · refine ⟨?_, fun address inPage => ⟨fun other' isOther unoffered => ?_, ?_⟩⟩
        · have base : InPage page.pageBase page.pageBase := ⟨le_rfl, by simp [memoryPageSize]⟩
          have lower := (freshPage page inResult isNew _ base).1.1
          have positive := source.positive place
          omega
        · obtain rfl := Option.some.inj isOther
          exact (freshPage page inResult isNew address inPage).2 unoffered
        · exact notAhead address (freshPage page inResult isNew address inPage).1
  · rintro address (⟨other, isOther, unoffered⟩ | ⟨other, otherGroup', isGroup, page, isMember, remaining⟩ |
      ahead)
    · obtain rfl := Option.some.inj isOther
      exact .inl ⟨segment, isCurrent, refilled.unoffered unoffered⟩
    · by_cases same : other = thread
      · subst same
        rw [ownGroup otherGroup' isGroup] at isMember
        by_cases isOld : page ∈ group
        · obtain ⟨old, hasOld, inOld⟩ := kept page isOld
          exact .inr (.inl ⟨other, old, hasOld, page, inOld, remaining⟩)
        · exact .inl ⟨segment, isCurrent, (freshPage page isMember isOld address remaining.1).1⟩
      · exact .inr (.inl ⟨other, otherGroup', otherGroup other otherGroup' same isGroup, page, isMember,
          remaining⟩)
    · exact .inr (.inr ahead)

/-- With enough pages left, `refill` gives the thread a group of unused pages. -/
theorem Sound.refill (sound : Sound source heap) (thread : ThreadId) (isCurrent : heap.allocator.current = some segment)
    (room : pageGroupNo ≤ segment.availablePages) :
    ∃ allocator group, heap.allocator.refill thread = some allocator ∧
      allocator.threadInfo thread = some group ∧
      (∀ allocationClass, group.available allocationClass = .ok) ∧
      (∃ rest, allocator.current = some rest ∧
        rest.availablePages + pageGroupNo = segment.availablePages) ∧
      Sound source ⟨allocator, heap.offered⟩ ∧
      ∀ address, Reserve source ⟨allocator, heap.offered⟩ address → Reserve source heap address := by
  have source' : heap.allocator.refillSource = some segment := by
    simp [ComputeNodeAllocator.refillSource, isCurrent, Option.filter, room]
  have installed := sound.install thread isCurrent
    (fun _ isMember => absurd isMember List.not_mem_nil) List.Pairwise.nil
    (length_offerPages pageGroupNo segment) (offerPages_refilled pageGroupNo segment room)
  refine ⟨_, _, by rw [ComputeNodeAllocator.refill, source']; rfl, Function.update_self _ _ _, ?_,
    ⟨_, rfl, ?_⟩, installed⟩
  · intro allocationClass
    have firstUsable : PageGroup.usable allocationClass
        (PageMirror.cleared (segment.seg + segment.offset * memoryPageSize)) = true := by
      simp [PageGroup.usable, PageMirror.cleared]
    simp [PageGroup.available, pageGroupNo, Segment.offerPages, Segment.offerPage, firstUsable]
  · have total := (offerPages_refilled pageGroupNo segment room).total
    have offset : ∀ count (segment : Segment),
        (segment.offerPages count).2.offset = segment.offset + count := by
      intro count
      induction count with
      | zero => exact fun _ => rfl
      | succ count ih =>
        intro segment
        simp only [Segment.offerPages, ih, Segment.offerPage]
        omega
    rw [offset] at total
    omega

/-- `refill_single_page` replaces the used-up pages of the class. -/
theorem Sound.refillSinglePage (sound : Sound source heap)
    (isCurrent : heap.allocator.current = some segment) (room : pageGroupNo ≤ segment.availablePages)
    (isGroup : heap.allocator.threadInfo thread = some group)
    (sized : 0 < memoryPageSize / allocationClass.size)
    (used : group.available allocationClass = .emptyPage) :
    ∃ allocator group', heap.allocator.refillSinglePage thread group allocationClass = some allocator ∧
      allocator.threadInfo thread = some group' ∧ group'.available allocationClass = .ok ∧
      Sound source ⟨allocator, heap.offered⟩ ∧
      ∀ address, Reserve source ⟨allocator, heap.offered⟩ address → Reserve source heap address := by
  obtain ⟨length, apart⟩ := sound.groups thread group isGroup
  have source' : heap.allocator.refillSource = some segment := by
    simp [ComputeNodeAllocator.refillSource, isCurrent, Option.filter, room]
  have installed := sound.install thread isCurrent
    (fun page isMember => ⟨group, isGroup, isMember⟩) apart
    ((length_refillPages allocationClass group segment).trans length)
    (refillPages_refilled allocationClass group segment (length ▸ room))
  refine ⟨_, _, by rw [ComputeNodeAllocator.refillSinglePage, source']; rfl,
    Function.update_self _ _ _, ?_, installed⟩
  have becomesUsable : ∀ (pages : PageGroup) (segment : Segment),
      (pages.any fun page => page.allocationClass == allocationClass) = true →
      (Segment.refillPages allocationClass pages segment).1.any (PageGroup.usable allocationClass) =
        true := by
    intro pages
    induction pages with
    | nil =>
      intro _ none
      simp at none
    | cons first pages ih =>
      intro segment some
      simp only [Segment.refillPages]
      split
      next =>
        simp [PageGroup.usable, PageMirror.descInitialize, PageMirror.available, sized]
      next kept =>
        rw [List.any_cons, Bool.or_eq_true] at some ⊢
        rcases some with isClass | later
        · have isClass : first.allocationClass = allocationClass := by simpa using isClass
          refine .inl ?_
          have available : first.available = true := by
            by_contra notAvailable
            exact kept ⟨isClass, by simpa using notAvailable⟩
          simp [PageGroup.usable, isClass, available]
        · exact .inr (ih _ later)
  have hasClass : (group.any fun page => page.allocationClass == allocationClass) = true := by
    unfold PageGroup.available at used
    split at used
    next => cases used
    next =>
      split at used
      next some => exact some
      next => cases used
  simp [PageGroup.available, becomesUsable group segment hasClass]

end RemoteHeap

/-! ### Taking a chunk -/

/-- The classes whose chunks a page counts without wrapping its byte. -/
def AllocationClass.Counted (allocationClass : AllocationClass) : Prop :=
  16 < allocationClass.size ∧
    memoryPageSize / allocationClass.size * allocationClass.size = memoryPageSize

instance (allocationClass : AllocationClass) : Decidable allocationClass.Counted :=
  inferInstanceAs (Decidable (16 < allocationClass.size ∧
    memoryPageSize / allocationClass.size * allocationClass.size = memoryPageSize))

theorem AllocationClass.Counted.bound (counted : allocationClass.Counted) :
    0 < memoryPageSize / allocationClass.size ∧ memoryPageSize / allocationClass.size < 256 := by
  obtain ⟨large, exactly⟩ := counted
  constructor
  · by_contra zero
    rw [Nat.eq_zero_of_not_pos zero, Nat.zero_mul, memoryPageSize] at exactly
    omega
  · rw [Nat.div_lt_iff_lt_mul (by omega), memoryPageSize]
    omega

theorem AllocationClass.Counted.known (counted : allocationClass.Counted) :
    allocationClass ≠ .chunkUnknown := by
  rintro rfl
  simp [AllocationClass.Counted, AllocationClass.size] at counted

/-- A chunk is what its page had left, from the bottom. -/
theorem takeChunk_spec (counted : allocationClass.Counted)
    (usable : PageGroup.usable allocationClass page = true) :
    (PageGroup.takeChunk allocationClass page).2.pageBase = page.pageBase ∧
      (∀ address, (PageGroup.takeChunk allocationClass page).1 ≤ address →
        address < (PageGroup.takeChunk allocationClass page).1 + allocationClass.size →
        page.Remaining address) ∧
      ∀ address, (PageGroup.takeChunk allocationClass page).2.Remaining address →
        page.Remaining address ∧
          (PageGroup.takeChunk allocationClass page).1 + allocationClass.size ≤ address := by
  obtain ⟨positive, small⟩ := counted.bound
  have isKnown := counted.known
  have exactly := counted.2
  by_cases isClass : page.allocationClass = allocationClass
  · have bound : page.offset.toNat < memoryPageSize / allocationClass.size := by
      simpa [PageGroup.usable, isClass, isKnown, PageMirror.available] using usable
    have next : (page.offset + 1).toNat = page.offset.toNat + 1 := by
      rw [UInt8.toNat_add]
      exact Nat.mod_eq_of_lt (by simp; omega)
    have inside := Nat.mul_le_mul_right allocationClass.size bound
    rw [exactly, Nat.succ_mul] at inside
    have taken : PageGroup.takeChunk allocationClass page = page.allocate := by
      rw [PageGroup.takeChunk, if_pos isClass]
    simp only [taken, PageMirror.allocate, PageMirror.Remaining, InPage, isClass, next, isKnown,
      false_or, Nat.succ_mul]
    exact ⟨trivial, fun address low high => by omega, fun address remaining => by omega⟩
  · have isNew : page.allocationClass = .chunkUnknown := by
      simpa [PageGroup.usable, isClass] using usable
    have inside := Nat.mul_le_mul_right allocationClass.size (show 1 ≤ _ from positive)
    rw [exactly] at inside
    have one : ((0 : UInt8) + 1).toNat = 1 := rfl
    have taken : PageGroup.takeChunk allocationClass page =
        (page.descInitialize allocationClass).allocate := by
      rw [PageGroup.takeChunk, if_neg isClass]
    simp only [taken, PageMirror.allocate, PageMirror.descInitialize, PageMirror.Remaining, InPage,
      isNew, one, isKnown, false_or, true_or, and_true, Nat.one_mul, UInt8.toNat_zero, Nat.zero_mul,
      Nat.add_zero]
    exact ⟨trivial, fun address low high => by omega, fun address remaining => by omega⟩

/-- `PageGroup::allocate` takes its chunk from one page and keeps the others. -/
theorem allocate_group_spec (ok : group.any (PageGroup.usable allocationClass) = true) :
    ∃ before page after, group = before ++ page :: after ∧
      PageGroup.usable allocationClass page = true ∧
      PageGroup.allocate allocationClass group =
        (some (PageGroup.takeChunk allocationClass page).1,
          before ++ (PageGroup.takeChunk allocationClass page).2 :: after) := by
  induction group with
  | nil => simp at ok
  | cons first pages ih =>
    by_cases usable : PageGroup.usable allocationClass first = true
    · exact ⟨[], first, pages, rfl, usable, by simp [PageGroup.allocate, usable]⟩
    · rw [List.any_cons, Bool.or_eq_true] at ok
      obtain ⟨before, page, after, isGroup, pageUsable, taken⟩ := ih (ok.resolve_left usable)
      refine ⟨first :: before, page, after, by rw [isGroup]; rfl, pageUsable, ?_⟩
      simp [PageGroup.allocate, usable, taken]

namespace RemoteHeap

variable {source : SegmentSource} {heap : RemoteHeap} {thread : ThreadId}

/-- A chunk of `size` bytes left the reserve and nothing entered it. -/
structure Took (source : SegmentSource) (before after : RemoteHeap) (chunk size : Nat) : Prop where
  sound : Sound source after
  shrinks : ∀ address, Reserve source after address → Reserve source before address
  chunk : ∀ address, chunk ≤ address → address < chunk + size →
    Reserve source before address ∧ ¬ Reserve source after address

theorem Took.after_of_shrinks {first second third : RemoteHeap} {chunk size : Nat}
    (shrinks : ∀ address, Reserve source second address → Reserve source first address)
    (took : Took source second third chunk size) : Took source first third chunk size where
  sound := took.sound
  shrinks address reserved := shrinks address (took.shrinks address reserved)
  chunk address low high :=
    ⟨shrinks address (took.chunk address low high).1, (took.chunk address low high).2⟩

/-- Allocating from a group that has a usable page. -/
theorem Sound.allocateFrom (sound : Sound source heap) (counted : allocationClass.Counted)
    (isGroup : heap.allocator.threadInfo thread = some group)
    (ok : group.available allocationClass = .ok) :
    ∃ chunk allocator, heap.allocator.allocateFrom thread allocationClass = (some chunk, allocator) ∧
      Took source heap ⟨allocator, heap.offered⟩ chunk allocationClass.size := by
  have anyUsable : group.any (PageGroup.usable allocationClass) = true := by
    unfold PageGroup.available at ok
    split at ok
    next some => exact some
    next => split at ok <;> cases ok
  obtain ⟨before, page, after, isSplit, usable, taken⟩ := allocate_group_spec anyUsable
  obtain ⟨sameBase, fromPage, leftPage⟩ := takeChunk_spec counted usable
  obtain ⟨length, apart⟩ := sound.groups thread group isGroup
  have isMember : page ∈ group := by
    rw [isSplit]
    simp
  have sameBases : (before ++ (PageGroup.takeChunk allocationClass page).2 :: after).map
      PageMirror.pageBase = group.map PageMirror.pageBase := by
    rw [isSplit]
    simp [sameBase]
  have basesIn : ∀ other ∈ before ++ (PageGroup.takeChunk allocationClass page).2 :: after,
      ∃ old ∈ group, old.pageBase = other.pageBase := by
    intro other inResult
    have inBases := List.mem_map_of_mem (f := PageMirror.pageBase) inResult
    rw [sameBases] at inBases
    obtain ⟨old, inOld, same⟩ := List.mem_map.mp inBases
    exact ⟨old, inOld, same⟩
  have others : ∀ other, other ∈ before ∨ other ∈ after → PagesApart page.pageBase other.pageBase := by
    rw [isSplit, List.map_append, List.map_cons, List.pairwise_append, List.pairwise_cons] at apart
    obtain ⟨_, ⟨toAfter, _⟩, fromBefore⟩ := apart
    rintro other (inBefore | inAfter)
    · exact (fromBefore _ (List.mem_map_of_mem inBefore) _ List.mem_cons_self).symm
    · exact toAfter _ (List.mem_map_of_mem inAfter)
  have groupOf : ∀ other otherGroup, Function.update heap.allocator.threadInfo thread
      (some (before ++ (PageGroup.takeChunk allocationClass page).2 :: after)) other = some otherGroup →
      (other = thread ∧ otherGroup = before ++ (PageGroup.takeChunk allocationClass page).2 :: after) ∨
        (other ≠ thread ∧ heap.allocator.threadInfo other = some otherGroup) := by
    intro other otherGroup isOther
    by_cases same : other = thread
    · rw [same, Function.update_self] at isOther
      exact .inl ⟨same, (Option.some.inj isOther).symm⟩
    · rw [Function.update_of_ne same] at isOther
      exact .inr ⟨same, isOther⟩
  have oldPage : ∀ other otherGroup, Function.update heap.allocator.threadInfo thread
      (some (before ++ (PageGroup.takeChunk allocationClass page).2 :: after)) other = some otherGroup →
      ∀ otherPage ∈ otherGroup, ∃ oldGroup, heap.allocator.threadInfo other = some oldGroup ∧
        ∃ old ∈ oldGroup, old.pageBase = otherPage.pageBase := by
    intro other otherGroup isOther otherPage inOther
    rcases groupOf other otherGroup isOther with ⟨rfl, rfl⟩ | ⟨_, isOld⟩
    · exact ⟨group, isGroup, basesIn otherPage inOther⟩
    · exact ⟨otherGroup, isOld, otherPage, inOther, rfl⟩
  refine ⟨_, _, by
    rw [ComputeNodeAllocator.allocateFrom, isGroup]
    simp only [taken]
    rfl, ?_⟩
  constructor
  case sound =>
    constructor
    case current => exact sound.current
    case groups =>
      intro other otherGroup isOther
      rcases groupOf other otherGroup isOther with ⟨_, rfl⟩ | ⟨_, isOld⟩
      · refine ⟨?_, by rw [sameBases]; exact apart⟩
        rw [← length, isSplit]
        simp
      · exact sound.groups other otherGroup isOld
    case threads =>
      intro left right leftGroup rightGroup differs isLeft isRight leftPage inLeft rightPage inRight
      obtain ⟨oldLeft, isOldLeft, oldLeftPage, inOldLeft, leftBase⟩ :=
        oldPage left leftGroup isLeft leftPage inLeft
      obtain ⟨oldRight, isOldRight, oldRightPage, inOldRight, rightBase⟩ :=
        oldPage right rightGroup isRight rightPage inRight
      rw [← leftBase, ← rightBase]
      exact sound.threads left right oldLeft oldRight differs isOldLeft isOldRight oldLeftPage inOldLeft
        oldRightPage inOldRight
    case taken =>
      intro other otherGroup isOther otherPage inOther
      obtain ⟨old, isOld, oldPage, inOld, base⟩ := oldPage other otherGroup isOther otherPage inOther
      rw [← base]
      exact sound.taken other old isOld oldPage inOld
  case shrinks =>
    rintro address (unoffered | ⟨other, otherGroup, isOther, otherPage, inOther, remaining⟩ | ahead)
    · exact .inl unoffered
    · rcases groupOf other otherGroup isOther with ⟨rfl, rfl⟩ | ⟨_, isOld⟩
      · rcases List.mem_append.mp inOther with inBefore | inRest
        · exact .inr (.inl ⟨other, group, isGroup, otherPage, by rw [isSplit]; simp [inBefore], remaining⟩)
        · rcases List.mem_cons.mp inRest with rfl | inAfter
          · exact .inr (.inl ⟨other, group, isGroup, page, isMember, (leftPage address remaining).1⟩)
          · exact .inr (.inl ⟨other, group, isGroup, otherPage, by rw [isSplit]; simp [inAfter], remaining⟩)
      · exact .inr (.inl ⟨other, otherGroup, isOld, otherPage, inOther, remaining⟩)
    · exact .inr (.inr ahead)
  case chunk =>
    intro address low high
    have remaining := fromPage address low high
    obtain ⟨_, outside⟩ := sound.taken thread group isGroup page isMember
    refine ⟨.inr (.inl ⟨thread, group, isGroup, page, isMember, remaining⟩), ?_⟩
    rintro (⟨segment, isCurrent, unoffered⟩ | ⟨other, otherGroup, isOther, otherPage, inOther, left⟩ | ahead)
    · exact (outside address remaining.1).1 segment isCurrent unoffered
    · rcases groupOf other otherGroup isOther with ⟨rfl, rfl⟩ | ⟨differs, isOld⟩
      · rcases List.mem_append.mp inOther with inBefore | inRest
        · exact others otherPage (.inl inBefore) address remaining.1 left.1
        · rcases List.mem_cons.mp inRest with rfl | inAfter
          · have := (leftPage address left).2
            omega
          · exact others otherPage (.inr inAfter) address remaining.1 left.1
      · exact sound.threads thread other group otherGroup (Ne.symm differs) isGroup isOld page isMember
          otherPage inOther address remaining.1 left.1
    · exact (outside address remaining.1).2 ahead

/-- One call of the allocator either takes a chunk or finds the segment nearly used
up and takes nothing. -/
theorem Sound.allocate_cases (sound : Sound source heap) (thread : ThreadId) (size : Nat) (counted : (getClass size).Counted) :
    (∃ chunk allocator, heap.allocator.allocate thread size = (some chunk, allocator) ∧
        Took source heap ⟨allocator, heap.offered⟩ chunk (getClass size).size) ∨
      (heap.allocator.allocate thread size = (none, heap.allocator) ∧
        ∀ segment, heap.allocator.current = some segment → segment.availablePages < pageGroupNo) := by
  -- a refill that returns false took nothing
  have noSource : (∀ segment, heap.allocator.current = some segment →
      segment.availablePages < pageGroupNo) → heap.allocator.refillSource = none := by
    intro nearlyEmpty
    cases isCurrent : heap.allocator.current with
    | none => simp [ComputeNodeAllocator.refillSource, isCurrent]
    | some segment =>
      have few := nearlyEmpty segment isCurrent
      simp [ComputeNodeAllocator.refillSource, isCurrent, few]
  have roomOrNot : (∃ segment, heap.allocator.current = some segment ∧
      pageGroupNo ≤ segment.availablePages) ∨
      (∀ segment, heap.allocator.current = some segment → segment.availablePages < pageGroupNo) := by
    cases isCurrent : heap.allocator.current with
    | none => exact .inr fun _ isSome => by cases isSome
    | some segment =>
      by_cases room : pageGroupNo ≤ segment.availablePages
      · exact .inl ⟨segment, rfl, room⟩
      · refine .inr fun other isOther => ?_
        obtain rfl := Option.some.inj isOther
        omega
  cases isGroup : heap.allocator.threadInfo thread with
  | none =>
    rcases roomOrNot with ⟨segment, isCurrent, room⟩ | nearlyEmpty
    · obtain ⟨allocator, group, refilled, hasGroup, ok, _, sound', shrinks⟩ :=
        sound.refill thread isCurrent room
      obtain ⟨chunk, after, taken, took⟩ := sound'.allocateFrom counted hasGroup (ok _)
      refine .inl ⟨chunk, after, ?_, took.after_of_shrinks shrinks⟩
      simp [ComputeNodeAllocator.allocate, isGroup, refilled, hasGroup, ok, taken]
    · refine .inr ⟨?_, nearlyEmpty⟩
      simp [ComputeNodeAllocator.allocate, isGroup, ComputeNodeAllocator.refill,
        noSource nearlyEmpty]
  | some group =>
    cases status : group.available (getClass size) with
    | ok =>
      obtain ⟨chunk, after, taken, took⟩ := sound.allocateFrom counted isGroup status
      refine .inl ⟨chunk, after, ?_, took⟩
      simp [ComputeNodeAllocator.allocate, isGroup, status, taken]
    | emptyPage =>
      rcases roomOrNot with ⟨segment, isCurrent, room⟩ | nearlyEmpty
      · obtain ⟨allocator, group', refilled, hasGroup, ok, sound', shrinks⟩ :=
          sound.refillSinglePage isCurrent room isGroup counted.bound.1 status
        obtain ⟨chunk, after, taken, took⟩ := sound'.allocateFrom counted hasGroup ok
        refine .inl ⟨chunk, after, ?_, took.after_of_shrinks shrinks⟩
        simp [ComputeNodeAllocator.allocate, isGroup, status, refilled, taken]
      · refine .inr ⟨?_, nearlyEmpty⟩
        simp [ComputeNodeAllocator.allocate, isGroup, status, ComputeNodeAllocator.refillSinglePage,
          noSource nearlyEmpty]
    | emptyPageGroup =>
      rcases roomOrNot with ⟨segment, isCurrent, room⟩ | nearlyEmpty
      · obtain ⟨allocator, group', refilled, hasGroup, ok, _, sound', shrinks⟩ :=
          sound.refill thread isCurrent room
        obtain ⟨chunk, after, taken, took⟩ := sound'.allocateFrom counted hasGroup (ok _)
        refine .inl ⟨chunk, after, ?_, took.after_of_shrinks shrinks⟩
        simp [ComputeNodeAllocator.allocate, isGroup, status, refilled, taken]
      · refine .inr ⟨?_, nearlyEmpty⟩
        simp [ComputeNodeAllocator.allocate, isGroup, status, ComputeNodeAllocator.refill,
          noSource nearlyEmpty]

/-- A new segment only brings what was ahead. -/
theorem Sound.applyForMemory (sound : Sound source heap) :
    Sound source ⟨heap.allocator.applyForMemory (source.segment heap.offered), heap.offered + 1⟩ ∧
      ∀ address, Reserve source
          ⟨heap.allocator.applyForMemory (source.segment heap.offered), heap.offered + 1⟩ address →
        Reserve source heap address := by
  have pages : 1 + (segmentSize / memoryPageSize - 1) = segmentSize / memoryPageSize := by decide
  have whole : segmentSize / memoryPageSize * memoryPageSize = segmentSize := by decide
  have newest : ∀ address, (Segment.make (source.segment heap.offered)).Unoffered address →
      source.Ahead heap.offered address := by
    intro address unoffered
    simp only [Segment.Unoffered, Segment.make, pages, whole] at unoffered
    exact ⟨heap.offered, le_rfl, by omega, unoffered.2⟩
  have later : ∀ address, source.Ahead (heap.offered + 1) address → source.Ahead heap.offered address :=
    fun address ⟨index, bound, inside⟩ => ⟨index, by omega, inside⟩
  refine ⟨⟨?_, sound.groups, sound.threads, ?_⟩, ?_⟩
  · intro segment isCurrent
    obtain rfl := Option.some.inj isCurrent
    exact ⟨⟨heap.offered, Nat.lt_succ_self _, rfl⟩, by simp only [Segment.make, pages, whole]⟩
  · intro thread group isGroup page isMember
    obtain ⟨positive, outside⟩ := sound.taken thread group isGroup page isMember
    refine ⟨positive, fun address inPage => ⟨fun segment isCurrent unoffered => ?_, fun ahead => ?_⟩⟩
    · obtain rfl := Option.some.inj isCurrent
      exact (outside address inPage).2 (newest address unoffered)
    · exact (outside address inPage).2 (later address ahead)
  · rintro address (⟨segment, isCurrent, unoffered⟩ | inGroup | ahead)
    · obtain rfl := Option.some.inj isCurrent
      exact .inr (.inr (newest address unoffered))
    · exact .inr (.inl inGroup)
    · exact .inr (.inr (later address ahead))

theorem Sound.pos_of_reserve (sound : Sound source heap) {address : Nat}
    (reserved : Reserve source heap address) : 0 < address := by
  rcases reserved with ⟨segment, isCurrent, unoffered⟩ | ⟨thread, group, isGroup, page, isMember, remaining⟩ |
    ⟨index, _, low, _⟩
  · obtain ⟨⟨index, _, isSeg⟩, _⟩ := sound.current segment isCurrent
    have positive := source.positive index
    have low := unoffered.1
    omega
  · have positive := (sound.taken thread group isGroup page isMember).1
    have low := remaining.1.1
    omega
  · have positive := source.positive index
    omega

/-- `ComputeNode::allocate` always returns a chunk, and never the same one twice. -/
theorem Sound.allocate (sound : Sound source heap) (thread : ThreadId) (size : Nat)
    (counted : (getClass size).Counted) :
    ∃ chunk after, RemoteHeap.allocate source heap thread size = (some chunk, after) ∧
      Took source heap after chunk (getClass size).size := by
  rcases sound.allocate_cases thread size counted with
    ⟨chunk, allocator, taken, took⟩ | ⟨none, _⟩
  · exact ⟨chunk, _, by simp [RemoteHeap.allocate, taken], took⟩
  · obtain ⟨sound', shrinks⟩ := sound.applyForMemory
    rcases sound'.allocate_cases thread size counted with
      ⟨chunk, allocator, taken, took⟩ | ⟨_, nearlyEmpty⟩
    · refine ⟨chunk, _, ?_, took.after_of_shrinks shrinks⟩
      simp only at taken
      simp [RemoteHeap.allocate, none, taken]
    · have few := nearlyEmpty _ rfl
      simp [Segment.make, segmentSize, memoryPageSize, pageGroupNo] at few

end RemoteHeap

/-! ### Size classes -/

/-- A chunk is large enough, and counted in its page's byte. -/
theorem getClass_spec {size : Nat} (large : 16 < size) (small : size ≤ memoryPageSize) :
    (getClass size).Counted ∧ size ≤ (getClass size).size := by
  -- the class depends on the number of 16-byte units only
  have check : ∀ units : Fin 257, 2 ≤ units.val →
      (getClass (16 * units)).Counted ∧ 16 * units.val ≤ (getClass (16 * units)).size := by
    decide +kernel
  have sameUnits : getClass size = getClass (16 * ((size - 1) / 16 + 1)) := by
    unfold getClass
    rw [show (16 * ((size - 1) / 16 + 1) - 1) / 16 = (size - 1) / 16 by omega]
  rw [memoryPageSize] at small
  have checked := check ⟨(size - 1) / 16 + 1, by omega⟩ (by simp only; omega)
  rw [sameUnits]
  exact ⟨checked.1, le_trans (show size ≤ 16 * ((size - 1) / 16 + 1) by omega) checked.2⟩

end DiStore.Memory
