import DiStore.Memory.Mirrors

/-!
Contract: what `free` credits.

Owns: the runs of `apply_for_memory`, `allocate` and `free` over the segments of one memory
node, what the two lookups of `free` find, and when a chunk is credited exactly once.

Does not own: the pages and their mirrors (`Memory.Mirrors`).
-/

set_option autoImplicit false

namespace DiStore.Memory

open DiStore.Concurrency AllocatorRun

/-- The address lies in the segment. -/
def TrackedSegment.Contains (segment : TrackedSegment) (address : Nat) : Prop :=
  segment.seg ≤ address ∧ address < segment.seg + segmentSize

namespace MirrorAllocator

variable {mem : Nat} {allocator : MirrorAllocator} {pointer left right : MirrorPointer}
variable {segment current : TrackedSegment} {retired : List TrackedSegment} {chunk : RemotePointer}

/-! ### Lookups -/

/-- All pages begin at the same place between two multiples of the page size. -/
theorem Tracked.base_place (tracked : Tracked mem allocator) (isBelow : pointer < allocator.made) :
    ∃ place, (allocator.mirror pointer).pageBase = mem + place * memoryPageSize := by
  obtain ⟨segment, isMember, isEntry⟩ := tracked.mapped pointer isBelow
  obtain ⟨_, _, place, _, _, isBase⟩ := tracked.recorded segment isMember _ _ isEntry
  obtain ⟨index, isSegment⟩ := tracked.handed segment isMember
  refine ⟨1 + index * 262144 + place, ?_⟩
  rw [isBase, isSegment]
  show mem + memoryPageSize + index * segmentSize + place * memoryPageSize = _
  have whole : segmentSize = 262144 * memoryPageSize := by decide
  rw [whole, Nat.add_mul, Nat.add_mul, Nat.one_mul, Nat.mul_assoc]
  omega

/-- A chunk lies in one page only. -/
theorem Tracked.page_unique (tracked : Tracked mem allocator) (leftBelow : left < allocator.made)
    (rightBelow : right < allocator.made) (inLeft : InPage (allocator.mirror left).pageBase chunk)
    (inRight : InPage (allocator.mirror right).pageBase chunk) : left = right := by
  apply tracked.single left right leftBelow rightBelow
  obtain ⟨leftPlace, isLeft⟩ := tracked.base_place leftBelow
  obtain ⟨rightPlace, isRight⟩ := tracked.base_place rightBelow
  rw [isLeft] at inLeft ⊢
  rw [isRight] at inRight ⊢
  unfold InPage memoryPageSize at inLeft inRight
  unfold memoryPageSize
  have below : mem + leftPlace * 4096 < mem + rightPlace * 4096 + 4096 := Nat.lt_of_le_of_lt inLeft.1 inRight.2
  have above : mem + rightPlace * 4096 < mem + leftPlace * 4096 + 4096 := Nat.lt_of_le_of_lt inRight.1 inLeft.2
  omega

/-- The masked chunk is the base of its page, if the buffer begins on a page. -/
theorem Tracked.pageOf_eq (tracked : Tracked mem allocator) (aligned : memoryPageSize ∣ mem)
    (isBelow : pointer < allocator.made) (inPage : InPage (allocator.mirror pointer).pageBase chunk) :
    pageOf chunk = (allocator.mirror pointer).pageBase := by
  obtain ⟨place, isBase⟩ := tracked.base_place isBelow
  obtain ⟨pages, isMem⟩ := aligned
  rw [isBase] at inPage ⊢
  rw [isMem, Nat.mul_comm, ← Nat.add_mul] at inPage ⊢
  unfold pageOf
  congr 1
  apply Nat.div_eq_of_lt_le inPage.1
  rw [Nat.add_one_mul]
  exact inPage.2

/-- In a buffer that begins inside of a page no masked address is the base of a page. -/
theorem Tracked.lookup_unaligned (tracked : Tracked mem allocator) (unaligned : ¬ memoryPageSize ∣ mem)
    (isMember : segment ∈ allocator.segments) (chunk : RemotePointer) :
    segment.mirrors.lookup (pageOf chunk) = none := by
  rw [List.lookup_eq_none_iff]
  intro entry isEntry
  rw [bne_iff_ne]
  intro same
  obtain ⟨isBelow, isBase, _⟩ := tracked.recorded segment isMember entry.1 entry.2 isEntry
  obtain ⟨place, isPlace⟩ := tracked.base_place isBelow
  apply unaligned
  apply (Nat.dvd_add_left (Nat.dvd_mul_left memoryPageSize place)).mp
  rw [← isPlace, isBase, ← same]
  exact Nat.dvd_mul_left memoryPageSize _

/-- The page that contains a chunk, in the only segment whose map has it. -/
structure Holds (allocator : MirrorAllocator) (chunk : RemotePointer) (pointer : MirrorPointer)
    (before : List TrackedSegment) (owner : TrackedSegment) (after : List TrackedSegment) : Prop where
  isBelow : pointer < allocator.made
  inPage : InPage (allocator.mirror pointer).pageBase chunk
  segments : allocator.segments = before ++ owner :: after
  found : owner.mirrors.lookup (allocator.mirror pointer).pageBase = some pointer
  missed : ∀ segment ∈ before ++ after, segment.mirrors.lookup (allocator.mirror pointer).pageBase = none
  inside : owner.Contains chunk
  outside : ∀ segment ∈ before ++ after, ¬ segment.Contains chunk

theorem Tracked.holds (tracked : Tracked mem allocator) (isBelow : pointer < allocator.made)
    (inPage : InPage (allocator.mirror pointer).pageBase chunk) :
    ∃ before owner after, Holds allocator chunk pointer before owner after := by
  obtain ⟨owner, isMember, isEntry⟩ := tracked.mapped pointer isBelow
  obtain ⟨before, after, isSplit⟩ := List.append_of_mem isMember
  have ofPart : ∀ segment ∈ before ++ after, segment ∈ allocator.segments := by
    intro segment inPart
    rw [isSplit]
    exact (List.Sublist.append_left (List.sublist_cons_self owner after) before).mem inPart
  have apart : ∀ segment ∈ before ++ after, SegmentsApart owner.seg segment.seg := by
    have pairwise := tracked.apart
    rw [isSplit, List.pairwise_append, List.pairwise_cons] at pairwise
    obtain ⟨_, ⟨toAfter, _⟩, fromBefore⟩ := pairwise
    intro segment inPart
    rcases List.mem_append.mp inPart with inBefore | inAfter
    · exact (fromBefore segment inBefore owner List.mem_cons_self).symm
    · exact toAfter segment inAfter
  obtain ⟨_, _, offered⟩ := tracked.recorded owner isMember _ _ isEntry
  have within := offered.inside (tracked.counted owner isMember) inPage
  refine ⟨before, owner, after, isBelow, inPage, isSplit, ?_, ?_, ?_, ?_⟩
  · cases isFound : owner.mirrors.lookup (allocator.mirror pointer).pageBase with
    | none =>
        have differs := List.lookup_eq_none_iff.mp isFound _ isEntry
        rw [bne_iff_ne] at differs
        exact absurd rfl differs
    | some other =>
        obtain ⟨front, back, isMirrors, _⟩ := List.lookup_eq_some_iff.mp isFound
        have isOther : ((allocator.mirror pointer).pageBase, other) ∈ owner.mirrors := by
          rw [isMirrors]
          exact List.mem_append_right _ List.mem_cons_self
        obtain ⟨otherBelow, sameBase, _⟩ := tracked.recorded owner isMember _ other isOther
        rw [tracked.single other pointer otherBelow isBelow sameBase]
  · intro segment inPart
    rw [List.lookup_eq_none_iff]
    intro entry inMirrors
    rw [bne_iff_ne]
    intro same
    obtain ⟨_, _, fromSegment⟩ := tracked.recorded segment (ofPart segment inPart) entry.1 entry.2 inMirrors
    rw [← same] at fromSegment
    have other := fromSegment.inside (tracked.counted segment (ofPart segment inPart)) inPage
    have differ := apart segment inPart
    unfold SegmentsApart at differ
    omega
  · exact ⟨(Nat.le_add_right _ _).trans within.1, within.2⟩
  · intro segment inPart other
    have differ := apart segment inPart
    unfold SegmentsApart at differ
    unfold TrackedSegment.Contains at other
    omega

/-! ### Credits -/

theorem freeIn_none {page : Nat} {remote : RemotePointer} (missed : segment.mirrors.lookup page = none)
    (allocator : MirrorAllocator) : freeIn segment page remote allocator = allocator := by
  unfold freeIn
  rw [missed]

theorem freeIn_some {page : Nat} {remote : RemotePointer} (found : segment.mirrors.lookup page = some pointer)
    (allocator : MirrorAllocator) :
    freeIn segment page remote allocator =
      allocator.setMirror pointer ((allocator.mirror pointer).free remote) := by
  unfold freeIn
  rw [found]

theorem foldl_freeIn_none {page : Nat} {remote : RemotePointer} (segments : List TrackedSegment)
    (missed : ∀ segment ∈ segments, segment.mirrors.lookup page = none) (allocator : MirrorAllocator) :
    segments.foldl (fun allocator segment => freeIn segment page remote allocator) allocator = allocator := by
  induction segments generalizing allocator with
  | nil => rfl
  | cons first rest inductionHypothesis =>
      rw [List.foldl_cons, freeIn_none (missed first List.mem_cons_self)]
      exact inductionHypothesis (fun segment isMember => missed segment (List.mem_cons_of_mem _ isMember)) allocator

/-- One more slot. -/
def credited (page : PageMirror) : PageMirror := { page with emptySlots := page.emptySlots + 1 }

theorem pageOf_pageOf (remote : RemotePointer) : pageOf (pageOf remote) = pageOf remote := by
  unfold pageOf
  rw [Nat.mul_div_cancel _ (by decide)]

theorem free_eq_credited {page : PageMirror} {remote : RemotePointer} (isPage : page.pageBase = pageOf remote) :
    page.free remote = credited page := by
  unfold PageMirror.free
  rw [if_pos isPage]
  rfl

theorem setMirror_setMirror (allocator : MirrorAllocator) (pointer : MirrorPointer) (first second : PageMirror) :
    (allocator.setMirror pointer first).setMirror pointer second = allocator.setMirror pointer second := by
  unfold setMirror
  rw [Function.update_idem]

theorem mirror_setMirror (allocator : MirrorAllocator) (pointer : MirrorPointer) (page : PageMirror) :
    (allocator.setMirror pointer page).mirror pointer = page := by
  unfold setMirror
  exact Function.update_self pointer page allocator.mirror

/-- The loop over all segments credits the chunk's page once. -/
theorem Holds.foldl {before after : List TrackedSegment} {owner : TrackedSegment} {page : PageMirror}
    (holds : Holds allocator chunk pointer before owner after)
    (isPage : pageOf chunk = (allocator.mirror pointer).pageBase)
    (sameBase : page.pageBase = (allocator.mirror pointer).pageBase) :
    (before ++ owner :: after).foldl
        (fun allocator segment => freeIn segment (pageOf chunk) (pageOf chunk) allocator)
        (allocator.setMirror pointer page) =
      allocator.setMirror pointer (credited page) := by
  have found := holds.found
  have missed := holds.missed
  rw [← isPage] at found missed
  rw [List.foldl_append, List.foldl_cons,
    foldl_freeIn_none before (fun segment isMember => missed segment (List.mem_append_left _ isMember)),
    freeIn_some found,
    foldl_freeIn_none after (fun segment isMember => missed segment (List.mem_append_right _ isMember)),
    setMirror_setMirror, mirror_setMirror,
    free_eq_credited (sameBase.trans (isPage.symm.trans (pageOf_pageOf chunk).symm))]

theorem setMirror_same (allocator : MirrorAllocator) (pointer : MirrorPointer) :
    allocator.setMirror pointer (allocator.mirror pointer) = allocator := by
  unfold setMirror
  rw [Function.update_eq_self]

/-- A chunk of the current segment is credited twice. -/
theorem Holds.free_current {after : List TrackedSegment} {owner : TrackedSegment}
    (holds : Holds allocator chunk pointer [] owner after)
    (isPage : pageOf chunk = (allocator.mirror pointer).pageBase) :
    allocator.free chunk =
      some (allocator.setMirror pointer (credited (credited (allocator.mirror pointer)))) := by
  unfold MirrorAllocator.free
  have found := holds.found
  rw [← isPage] at found
  rw [holds.segments]
  show some ((owner :: after).foldl _ (freeIn owner (pageOf chunk) chunk allocator)) = _
  rw [freeIn_some found, free_eq_credited isPage.symm]
  exact congrArg some (holds.foldl isPage rfl)

/-- A chunk of any other segment is credited once. -/
theorem Holds.free_retired {first : TrackedSegment} {before after : List TrackedSegment} {owner : TrackedSegment}
    (holds : Holds allocator chunk pointer (first :: before) owner after)
    (isPage : pageOf chunk = (allocator.mirror pointer).pageBase) :
    allocator.free chunk = some (allocator.setMirror pointer (credited (allocator.mirror pointer))) := by
  unfold MirrorAllocator.free
  have missed := holds.missed first List.mem_cons_self
  rw [← isPage] at missed
  rw [holds.segments]
  show some ((first :: before ++ owner :: after).foldl _ (freeIn first (pageOf chunk) chunk allocator)) = _
  rw [freeIn_none missed]
  have folded := holds.foldl isPage rfl
  rw [setMirror_same] at folded
  exact congrArg some folded

/-- In a buffer that begins inside of a page nothing is credited. -/
theorem Tracked.free_unaligned (tracked : Tracked mem allocator) (unaligned : ¬ memoryPageSize ∣ mem)
    (isCurrent : allocator.segments = current :: retired) (chunk : RemotePointer) :
    allocator.free chunk = some allocator := by
  have missed : ∀ segment ∈ allocator.segments, segment.mirrors.lookup (pageOf chunk) = none :=
    fun segment isMember => tracked.lookup_unaligned unaligned isMember chunk
  unfold MirrorAllocator.free
  rw [isCurrent] at missed ⊢
  show some ((current :: retired).foldl _ (freeIn current (pageOf chunk) chunk allocator)) = _
  rw [freeIn_none (missed current List.mem_cons_self), foldl_freeIn_none _ missed]

/-- `free` adds one to `empty_slots` of the page that contains the chunk and changes no other
page. -/
def CreditsOnce (allocator : MirrorAllocator) (chunk : RemotePointer) : Prop :=
  ∃ next, allocator.free chunk = some next ∧ ∃ pointer, pointer < allocator.made ∧
    InPage (allocator.mirror pointer).pageBase chunk ∧
    next.mirror pointer = credited (allocator.mirror pointer) ∧
    (next.mirror pointer).emptySlots.toNat = (allocator.mirror pointer).emptySlots.toNat + 1 ∧
    ∀ other, other ≠ pointer → next.mirror other = allocator.mirror other

/-- The chunk lies in the segment that pages are taken from. -/
def InCurrent (allocator : MirrorAllocator) (chunk : RemotePointer) : Prop :=
  ∃ current, allocator.segments.head? = some current ∧ current.Contains chunk

theorem toNat_add_one {slots : UInt8} : (slots + 1).toNat = slots.toNat + 1 ↔ slots ≠ 255 := by
  rw [UInt8.toNat_add]
  show (slots.toNat + 1) % 256 = slots.toNat + 1 ↔ _
  have isByte := slots.toNat_lt
  rw [Ne, ← UInt8.toNat_inj]
  show _ ↔ ¬ slots.toNat = 255
  omega

theorem toNat_add_two (slots : UInt8) : (slots + 1 + 1).toNat ≠ slots.toNat + 1 := by
  rw [UInt8.toNat_add, UInt8.toNat_add]
  show ((slots.toNat + 1) % 256 + 1) % 256 ≠ slots.toNat + 1
  have isByte := slots.toNat_lt
  omega

theorem Tracked.creditsOnce_iff (tracked : Tracked mem allocator) (isBelow : pointer < allocator.made)
    (inPage : InPage (allocator.mirror pointer).pageBase chunk) :
    allocator.CreditsOnce chunk ↔
      memoryPageSize ∣ mem ∧ ¬ allocator.InCurrent chunk ∧ (allocator.mirror pointer).emptySlots ≠ 255 := by
  obtain ⟨before, owner, after, holds⟩ := tracked.holds isBelow inPage
  have isSame : ∀ other, other < allocator.made → InPage (allocator.mirror other).pageBase chunk →
      other = pointer :=
    fun other otherBelow inOther => tracked.page_unique otherBelow isBelow inOther inPage
  by_cases aligned : memoryPageSize ∣ mem
  · have isPage := tracked.pageOf_eq aligned isBelow inPage
    cases before with
    | nil =>
        -- the current segment: once for itself, and once more among all segments
        apply iff_of_false
        · rintro ⟨next, isFreed, other, otherBelow, inOther, _, counted, _⟩
          rw [holds.free_current isPage] at isFreed
          rw [isSame other otherBelow inOther, ← Option.some.inj isFreed, mirror_setMirror] at counted
          exact toNat_add_two _ counted
        · rintro ⟨_, outside, _⟩
          apply outside
          refine ⟨owner, ?_, holds.inside⟩
          rw [holds.segments]
          rfl
    | cons first before =>
        have outside : ¬ allocator.InCurrent chunk := by
          rintro ⟨current, isCurrent, inside⟩
          rw [holds.segments] at isCurrent
          rw [← Option.some.inj isCurrent] at inside
          exact holds.outside first List.mem_cons_self inside
        constructor
        · rintro ⟨next, isFreed, other, otherBelow, inOther, _, counted, _⟩
          rw [holds.free_retired isPage] at isFreed
          rw [isSame other otherBelow inOther, ← Option.some.inj isFreed, mirror_setMirror] at counted
          exact ⟨aligned, outside, toNat_add_one.mp counted⟩
        · rintro ⟨_, _, notFull⟩
          refine ⟨_, holds.free_retired isPage, pointer, isBelow, inPage, ?_, ?_, ?_⟩
          · exact mirror_setMirror _ _ _
          · rw [mirror_setMirror]
            exact toNat_add_one.mpr notFull
          · exact fun other differs => Function.update_of_ne differs _ _
  · apply iff_of_false
    · rintro ⟨next, isFreed, other, _, _, _, counted, _⟩
      have isMember : owner ∈ allocator.segments := by
        rw [holds.segments]
        exact List.mem_append_right _ List.mem_cons_self
      obtain ⟨current, retired, isCurrent⟩ := List.exists_cons_of_ne_nil (List.ne_nil_of_mem isMember)
      rw [tracked.free_unaligned aligned isCurrent] at isFreed
      rw [← Option.some.inj isFreed] at counted
      omega
    · exact fun holdsWhen => aligned holdsWhen.1

end MirrorAllocator

/-! ### Runs -/

/-- The allocator with the chunks it returned that were not freed yet. -/
structure ChunkRun where
  allocator : MirrorAllocator
  live : List RemotePointer

namespace ChunkRun

variable {mem : Nat} {run next : ChunkRun} {chunk : RemotePointer}

def start : ChunkRun := ⟨.empty, []⟩

/-- A whole call. Segments come from the memory node whose buffer is at `mem`, each at most
once, and only live chunks are freed. -/
inductive Call (mem : Nat) : ChunkRun → ChunkRun → Prop where
  | applyForMemory {run : ChunkRun} (index : Nat)
      (unused : ∀ segment ∈ run.allocator.segments, segment.seg ≠ (SegmentSource.memoryNode mem).segment index) :
      Call mem run ⟨run.allocator.applyForMemory ((SegmentSource.memoryNode mem).segment index), run.live⟩
  | allocate {run : ChunkRun} (thread : ThreadId) (size : Nat) (positive : 1 ≤ size) (small : size ≤ 4096) :
      Call mem run ⟨(run.allocator.allocate thread size).2, (run.allocator.allocate thread size).1.toList ++ run.live⟩
  | free {run : ChunkRun} {next : MirrorAllocator} (chunk : RemotePointer) (isLive : chunk ∈ run.live)
      (isFreed : run.allocator.free chunk = some next) : Call mem run ⟨next, run.live.erase chunk⟩

inductive Called (mem : Nat) : ChunkRun → Prop where
  | start : Called mem start
  | call {run next : ChunkRun} (before : Called mem run) (call : Call mem run next) : Called mem next

/-- Live chunks lie in pages that have mirrors. -/
structure Held (mem : Nat) (run : ChunkRun) : Prop where
  placed : run.allocator.Placed mem
  live : ∀ chunk ∈ run.live, ∃ pointer, pointer < run.allocator.made ∧
    InPage (run.allocator.mirror pointer).pageBase chunk

theorem held_start : Held mem start where
  placed := ⟨MirrorAllocator.tracked_empty, MirrorAllocator.exclusive_empty⟩
  live _ isLive := by cases isLive

/-- `free` writes to mirrors without moving their pages. -/
theorem placed_free {allocator next : MirrorAllocator} (placed : allocator.Placed mem)
    (isFreed : allocator.free chunk = some next) : next.Placed mem ∧ allocator.Extends next := by
  have inOne : ∀ (segment : TrackedSegment) (page : Nat) (remote : RemotePointer) (middle : MirrorAllocator),
      middle.Placed mem ∧ allocator.Extends middle →
      (MirrorAllocator.freeIn segment page remote middle).Placed mem ∧
        allocator.Extends (MirrorAllocator.freeIn segment page remote middle) := by
    intro segment page remote middle kept
    unfold MirrorAllocator.freeIn
    split
    next => exact kept
    next pointer _ =>
      have sameBase : ((middle.mirror pointer).free remote).pageBase = (middle.mirror pointer).pageBase := by
        unfold PageMirror.free
        split
        next => rfl
        next => rfl
      exact ⟨kept.1.setMirror sameBase,
        kept.2.trans ⟨le_rfl, fun other _ => MirrorAllocator.pageBase_setMirror sameBase other⟩⟩
  have inAll : ∀ (segments : List TrackedSegment) (middle : MirrorAllocator),
      middle.Placed mem ∧ allocator.Extends middle →
      (segments.foldl (fun middle segment =>
        MirrorAllocator.freeIn segment (pageOf chunk) (pageOf chunk) middle) middle).Placed mem ∧
        allocator.Extends (segments.foldl (fun middle segment =>
          MirrorAllocator.freeIn segment (pageOf chunk) (pageOf chunk) middle) middle) := by
    intro segments
    induction segments with
    | nil => exact fun _ kept => kept
    | cons first rest inductionHypothesis => exact fun middle kept => inductionHypothesis _ (inOne first _ _ middle kept)
  obtain ⟨current, _, isNext⟩ := Option.map_eq_some_iff.mp isFreed
  rw [← isNext]
  exact inAll _ _ (inOne current _ chunk allocator ⟨placed, MirrorAllocator.Extends.refl allocator⟩)

theorem Held.call (held : Held mem run) (call : Call mem run next) : Held mem next := by
  have stays : ∀ {after : MirrorAllocator}, run.allocator.Extends after → ∀ chunk ∈ run.live,
      ∃ pointer, pointer < after.made ∧ InPage (after.mirror pointer).pageBase chunk := by
    intro after extended chunk isLive
    obtain ⟨pointer, isBelow, inPage⟩ := held.live chunk isLive
    refine ⟨pointer, isBelow.trans_le extended.made, ?_⟩
    rw [extended.bases pointer isBelow]
    exact inPage
  cases call with
  | applyForMemory index unused =>
      have exclusive := held.placed.exclusive
      exact ⟨⟨held.placed.tracked.applyForMemory unused,
        exclusive.length, exclusive.bounded, exclusive.nodup, exclusive.threads⟩, held.live⟩
  | allocate thread size _ _ =>
      have allocated := held.placed.allocate thread size
      refine ⟨allocated.placed, ?_⟩
      intro chunk isMember
      rcases List.mem_append.mp isMember with isNew | isLive
      · exact allocated.inPage chunk (Option.mem_toList.mp isNew)
      · exact stays allocated.extended chunk isLive
  | free chunk _ isFreed =>
      obtain ⟨placed, extended⟩ := placed_free held.placed isFreed
      exact ⟨placed, fun other isMember => stays extended other (List.mem_of_mem_erase isMember)⟩

theorem Called.held (called : Called mem run) : Held mem run := by
  induction called with
  | start => exact held_start
  | call _ call inductionHypothesis => exact inductionHypothesis.call call

/-- A live chunk is credited exactly once if and only if the buffer begins on a page, the chunk
lies in a segment that is no longer the current one, and its page's byte does not wrap. -/
theorem free_credits_once_iff (called : Called mem run) (isLive : chunk ∈ run.live) :
    run.allocator.CreditsOnce chunk ↔
      memoryPageSize ∣ mem ∧ ¬ run.allocator.InCurrent chunk ∧
        ∀ pointer, pointer < run.allocator.made →
          InPage (run.allocator.mirror pointer).pageBase chunk →
          (run.allocator.mirror pointer).emptySlots ≠ 255 := by
  have held := called.held
  obtain ⟨pointer, isBelow, inPage⟩ := held.live chunk isLive
  rw [held.placed.tracked.creditsOnce_iff isBelow inPage]
  apply and_congr_right
  intro _
  apply and_congr_right
  intro _
  constructor
  · intro notFull other otherBelow inOther
    rw [held.placed.tracked.page_unique otherBelow isBelow inOther inPage]
    exact notFull
  · exact fun notFull => notFull pointer isBelow inPage

/-- One chunk of 32 bytes, the first of the first page that is offered. -/
def oneChunk : ChunkRun :=
  let offered := MirrorAllocator.empty.applyForMemory ((SegmentSource.memoryNode 0).segment 0)
  ⟨(offered.allocate 0 32).2, (offered.allocate 0 32).1.toList ++ []⟩

theorem called_oneChunk : Called 0 oneChunk :=
  .call (.call .start (.applyForMemory 0 fun _ isMember => by cases isMember))
    (.allocate 0 32 (by decide) (by decide))

/-- The chunk is freed after the next segment was applied for. -/
theorem retired_chunk_credited_once :
    (oneChunk.allocator.applyForMemory ((SegmentSource.memoryNode 0).segment 1)).CreditsOnce 8192 := by
  have unused : ∀ segment ∈ oneChunk.allocator.segments,
      segment.seg ≠ (SegmentSource.memoryNode 0).segment 1 := by decide +kernel
  have called : Called 0 _ := .call called_oneChunk (.applyForMemory 1 unused)
  apply (free_credits_once_iff called (by decide +kernel)).mpr
  refine ⟨by decide, ?_, ?_⟩
  · rintro ⟨current, isCurrent, inside⟩
    rw [← Option.some.inj isCurrent] at inside
    exact absurd inside.1 (by decide)
  · have few : ∀ pointer, pointer < 8 → (oneChunk.allocator.mirror pointer).emptySlots ≠ 255 := by decide +kernel
    exact fun pointer isBelow _ => few pointer isBelow

theorem current_chunk_not_credited_once :
    ¬ ∀ (mem : Nat) (run : ChunkRun) (chunk : RemotePointer), Called mem run → chunk ∈ run.live →
      run.allocator.CreditsOnce chunk := by
  intro always
  have once := always 0 oneChunk 8192 called_oneChunk (by decide +kernel)
  have isBelow : 0 < oneChunk.allocator.made := by decide +kernel
  have inPage : InPage (oneChunk.allocator.mirror 0).pageBase 8192 := by
    unfold InPage
    decide +kernel
  have holdsWhen := (called_oneChunk.held.placed.tracked.creditsOnce_iff isBelow inPage).mp once
  apply holdsWhen.2.1
  refine ⟨oneChunk.allocator.segments.head (by decide +kernel), List.head?_eq_some_head _, ?_⟩
  unfold TrackedSegment.Contains
  decide +kernel

end ChunkRun

end DiStore.Memory
