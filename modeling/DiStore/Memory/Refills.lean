import DiStore.Memory.AllocatorRun

/-!
Contract: when an allocation fails.

Owns: what `PageGroup::available` says about `PageGroup::allocate`, what a group has after
each refill, and the states that calls of any threads, for chunks of any size, reach.

Does not own: which chunks are handed out (`Memory.AllocatorRun`).
-/

set_option autoImplicit false

namespace DiStore.Memory

open DiStore.Concurrency

variable {allocationClass : AllocationClass} {page : PageMirror} {group : PageGroup} {segment : Segment}

/-! ### Groups -/

/-- A class of chunks of which a page has at least one. -/
def AllocationClass.Sized (allocationClass : AllocationClass) : Prop :=
  0 < memoryPageSize / allocationClass.size

theorem getClass_sized (size : Nat) : (getClass size).Sized := by
  have all : ∀ exponent, (AllocationClass.ofExponent exponent).Sized := by
    intro exponent
    unfold AllocationClass.ofExponent AllocationClass.Sized
    split <;> decide
  exact all _

namespace PageGroup

theorem available_eq_ok : group.available allocationClass = .ok ↔ group.any (usable allocationClass) = true := by
  unfold PageGroup.available
  by_cases some : group.any (usable allocationClass) = true
  · rw [if_pos some]
    exact iff_of_true rfl some
  · rw [if_neg some]
    apply iff_of_false _ some
    split
    next => exact fun same => nomatch same
    next => exact fun same => nomatch same

/-- The two loops over the pages of a group agree. -/
theorem available_iff_allocate :
    group.available allocationClass = .ok ↔ (PageGroup.allocate allocationClass group).1.isSome = true := by
  rw [available_eq_ok]
  cases some : group.any (usable allocationClass) with
  | false =>
      rw [AllocatorRun.allocate_group_none some]
      rfl
  | true =>
      obtain ⟨before, page, after, _, _, taken⟩ := allocate_group_spec some
      rw [taken]
      exact iff_of_true rfl rfl

/-- No chunk of the class is left, but a page of it. -/
theorem full_page_of_emptyPage (empty : group.available allocationClass = .emptyPage) :
    ∃ page ∈ group, page.allocationClass = allocationClass ∧ page.available = false := by
  unfold PageGroup.available at empty
  split at empty
  next => cases empty
  next unusable =>
    split at empty
    next some =>
      obtain ⟨page, isMember, isClass⟩ := List.any_eq_true.mp some
      refine ⟨page, isMember, beq_iff_eq.mp isClass, ?_⟩
      rw [Bool.eq_false_iff]
      intro available
      apply unusable
      rw [List.any_eq_true]
      refine ⟨page, isMember, ?_⟩
      unfold usable
      rw [isClass, available]
      exact Bool.or_true _
    next => cases empty

theorem usable_initialized (sized : allocationClass.Sized) (page : PageMirror) :
    usable allocationClass (page.descInitialize allocationClass) = true := by
  unfold usable PageMirror.available
  rw [Bool.or_eq_true, Bool.and_eq_true]
  exact Or.inr ⟨beq_self_eq_true allocationClass, decide_eq_true sized⟩

/-- `refill_single_page` replaces every full page of the class. -/
theorem refillPages_usable (sized : allocationClass.Sized) (segment : Segment)
    (full : ∃ page ∈ group, page.allocationClass = allocationClass ∧ page.available = false) :
    (Segment.refillPages allocationClass group segment).1.any (usable allocationClass) = true := by
  induction group generalizing segment with
  | nil =>
      obtain ⟨_, isMember, _⟩ := full
      cases isMember
  | cons first rest inductionHypothesis =>
      unfold Segment.refillPages
      by_cases isFull : first.allocationClass = allocationClass ∧ first.available = false
      · rw [if_pos isFull]
        show (_ :: _).any _ = true
        rw [List.any_cons, usable_initialized sized, Bool.true_or]
      · rw [if_neg isFull]
        show (_ :: _).any _ = true
        have inRest : ∃ page ∈ rest, page.allocationClass = allocationClass ∧ page.available = false := by
          obtain ⟨page, isMember, isFullPage⟩ := full
          rcases List.mem_cons.mp isMember with isFirst | isLater
          · rw [isFirst] at isFullPage
            exact absurd isFullPage isFull
          · exact ⟨page, isLater, isFullPage⟩
        rw [List.any_cons, inductionHypothesis segment inRest, Bool.or_true]

/-- A group as `refill` makes it. -/
theorem offerPages_usable (segment : Segment) :
    (segment.offerPages pageGroupNo).1.any (usable allocationClass) = true := by
  show (PageMirror.cleared _ :: _).any _ = true
  rw [List.any_cons]
  rfl

/-- `free` makes no page usable or unusable. -/
theorem usable_free (page : PageMirror) (remote : RemotePointer) :
    usable allocationClass (page.free remote) = usable allocationClass page := by
  unfold PageMirror.free
  split
  next => rfl
  next => rfl

end PageGroup

/-! ### Refills -/

namespace ComputeNodeAllocator

variable {allocator next : ComputeNodeAllocator} {thread : ThreadId}

/-- The current segment cannot offer a group of pages. -/
def Exhausted (allocator : ComputeNodeAllocator) : Prop :=
  ∀ segment, allocator.current = some segment → segment.availablePages < pageGroupNo

theorem refillSource_eq_none : allocator.refillSource = none ↔ allocator.Exhausted := by
  unfold refillSource Exhausted
  rw [Option.filter_eq_none_iff]
  apply forall₂_congr
  intro segment _
  rw [decide_eq_true_iff, not_le]

/-- The thread's group has a chunk of the class. -/
def Ready (allocator : ComputeNodeAllocator) (thread : ThreadId) (allocationClass : AllocationClass) : Prop :=
  ∃ group, allocator.threadInfo thread = some group ∧ group.any (PageGroup.usable allocationClass) = true

theorem ready_setGroup (usable : group.any (PageGroup.usable allocationClass) = true)
    (isGroup : next.threadInfo = (allocator.setGroup thread group).threadInfo) : next.Ready thread allocationClass := by
  refine ⟨group, ?_, usable⟩
  rw [isGroup]
  exact Function.update_self thread (some group) allocator.threadInfo

theorem refill_ready (refilled : allocator.refill thread = some next) : next.Ready thread allocationClass := by
  obtain ⟨segment, _, isNext⟩ := Option.map_eq_some_iff.mp refilled
  rw [← isNext]
  exact ready_setGroup (PageGroup.offerPages_usable segment) rfl

theorem refillSinglePage_ready (sized : allocationClass.Sized)
    (empty : group.available allocationClass = .emptyPage)
    (refilled : allocator.refillSinglePage thread group allocationClass = some next) :
    next.Ready thread allocationClass := by
  obtain ⟨segment, _, isNext⟩ := Option.map_eq_some_iff.mp refilled
  rw [← isNext]
  exact ready_setGroup
    (PageGroup.refillPages_usable sized segment (PageGroup.full_page_of_emptyPage empty)) rfl

/-- A ready group gives a chunk. -/
theorem Ready.allocateFrom (ready : allocator.Ready thread allocationClass) :
    (allocator.allocateFrom thread allocationClass).1.isSome = true := by
  obtain ⟨group, isGroup, usable⟩ := ready
  unfold ComputeNodeAllocator.allocateFrom
  rw [isGroup]
  exact PageGroup.available_iff_allocate.mp (PageGroup.available_eq_ok.mpr usable)

theorem register_eq_none (failed : allocator.register thread = none) : allocator.Exhausted := by
  unfold register at failed
  split at failed
  next => exact refillSource_eq_none.mp (Option.map_eq_none_iff.mp failed)
  next => cases failed

/-- The switch of `allocate` on a thread's group. -/
theorem prepare_eq (isGroup : allocator.threadInfo thread = some group) :
    allocator.prepare thread allocationClass = match group.available allocationClass with
      | .ok => some allocator
      | .emptyPage => allocator.refillSinglePage thread group allocationClass
      | .emptyPageGroup => allocator.refill thread := by
  unfold prepare
  rw [isGroup]
  rfl

theorem prepare_eq_none (failed : allocator.prepare thread allocationClass = none) : allocator.Exhausted := by
  unfold prepare at failed
  change (match ((allocator.threadInfo thread).getD []).available allocationClass with
    | .ok => some allocator
    | .emptyPage =>
        allocator.refillSinglePage thread ((allocator.threadInfo thread).getD []) allocationClass
    | .emptyPageGroup => allocator.refill thread) = none at failed
  split at failed
  next => cases failed
  next => exact refillSource_eq_none.mp (Option.map_eq_none_iff.mp failed)
  next => exact refillSource_eq_none.mp (Option.map_eq_none_iff.mp failed)

/-- The switch of `allocate` leaves a chunk of the class in the group. -/
theorem prepare_ready (sized : allocationClass.Sized) (isRegistered : (allocator.threadInfo thread).isSome = true)
    (prepared : allocator.prepare thread allocationClass = some next) : next.Ready thread allocationClass := by
  obtain ⟨group, isGroup⟩ := Option.isSome_iff_exists.mp isRegistered
  rw [prepare_eq isGroup] at prepared
  cases status : group.available allocationClass with
  | ok =>
      rw [status] at prepared
      rw [← Option.some.inj prepared]
      exact ⟨group, isGroup, PageGroup.available_eq_ok.mp status⟩
  | emptyPage =>
      rw [status] at prepared
      exact refillSinglePage_ready sized status prepared
  | emptyPageGroup =>
      rw [status] at prepared
      exact refill_ready prepared

theorem register_isSome (registered : allocator.register thread = some next) :
    (next.threadInfo thread).isSome = true := by
  unfold register at registered
  split at registered
  next =>
    obtain ⟨group, isGroup, _⟩ : next.Ready thread .chunk32 := refill_ready registered
    rw [isGroup]
    rfl
  next has =>
    rw [← Option.some.inj registered]
    rw [Option.isSome_iff_ne_none, Ne, ← Option.isNone_iff_eq_none]
    exact has

/-- `allocate` returns null only when the current segment is exhausted. -/
theorem allocate_eq_none {size : Nat} (failed : (allocator.allocate thread size).1 = none) :
    allocator.Exhausted := by
  rw [allocate_eq_phases] at failed
  cases isRegistered : allocator.register thread with
  | none => exact register_eq_none isRegistered
  | some registered =>
      rw [isRegistered] at failed
      simp only at failed
      have hasGroup := register_isSome isRegistered
      cases isPrepared : registered.prepare thread (getClass size) with
      | some prepared =>
          rw [isPrepared] at failed
          have chunk := (prepare_ready (getClass_sized size) hasGroup isPrepared).allocateFrom
          rw [failed] at chunk
          cases chunk
      | none =>
          -- a group that was just made would have been usable
          unfold register at isRegistered
          split at isRegistered
          next =>
            obtain ⟨group, isGroup, usable⟩ : registered.Ready thread (getClass size) := refill_ready isRegistered
            rw [prepare_eq isGroup, PageGroup.available_eq_ok.mpr usable] at isPrepared
            cases isPrepared
          next =>
            rw [Option.some.inj isRegistered]
            exact prepare_eq_none isPrepared

end ComputeNodeAllocator

/-! ### Runs -/

namespace AllocatorRun

open ComputeNodeAllocator

variable {run next : AllocatorRun} {thread : ThreadId}

/-- A call, or the next phase of one, of any thread, for a chunk of any size; a segment may be
any part of memory. -/
inductive Call : AllocatorRun → AllocatorRun → Prop where
  | applyForMemory {run : AllocatorRun} (seg : Nat) : Call run (run.applyForMemory seg)
  | register {run : AllocatorRun} (thread : ThreadId) (size : Nat) (isIdle : run.progress thread = .idle)
      (positive : 1 ≤ size) (small : size ≤ 4096) : Call run (run.register thread size)
  | prepare {run : AllocatorRun} (thread : ThreadId) (allocationClass : AllocationClass)
      (isRegistered : run.progress thread = .registered allocationClass) :
      Call run (run.prepare thread allocationClass)
  | take {run : AllocatorRun} (thread : ThreadId) (allocationClass : AllocationClass)
      (isPrepared : run.progress thread = .prepared allocationClass) :
      Call run (run.take thread allocationClass)
  | free {run next : AllocatorRun} (remote : RemotePointer) (isFreed : run.free remote = some next) :
      Call run next

inductive Called : AllocatorRun → Prop where
  | start : Called start
  | call {run next : AllocatorRun} (before : Called run) (call : Call run next) : Called next

/-- What the phases of `allocate` leave for the next one. -/
structure Supplied (run : AllocatorRun) : Prop where
  counted : ∀ segment ∈ run.segments, segment.Counted
  length : ∀ thread group, run.allocator.threadInfo thread = some group → group.length = pageGroupNo
  registered : ∀ thread allocationClass, run.progress thread = .registered allocationClass →
    allocationClass.Sized ∧ (run.allocator.threadInfo thread).isSome = true
  prepared : ∀ thread allocationClass, run.progress thread = .prepared allocationClass →
    run.allocator.Ready thread allocationClass

theorem supplied_start : Supplied start where
  counted _ isMember := by cases isMember
  length _ _ isGroup := by cases isGroup
  registered _ _ isBusy := by cases isBusy
  prepared _ _ isBusy := by cases isBusy

/-- A refill for one thread, which has not prepared its group. -/
theorem Supplied.install (supplied : Supplied run) {segment rest : Segment} {kept result : PageGroup}
    (waiting : ∀ allocationClass, run.progress thread ≠ .prepared allocationClass)
    (isCurrent : run.allocator.current = some segment) (length : result.length = pageGroupNo)
    (refilled : Refilled kept segment result rest) :
    Supplied { run with
      allocator := { run.allocator.setGroup thread result with current := some rest } } := by
  have counted := supplied.counted
  rw [segments_of_current isCurrent] at counted
  constructor
  case counted =>
    intro old isMember
    rcases List.mem_cons.mp isMember with isFirst | isRetired
    · rw [isFirst]
      exact (counted segment List.mem_cons_self).refilled refilled
    · exact counted old (List.mem_cons_of_mem _ isRetired)
  case length =>
    intro other otherGroup isGroup
    rcases group_cases isGroup with ⟨_, isResult⟩ | ⟨_, isOld⟩
    · rw [isResult]
      exact length
    · exact supplied.length other otherGroup isOld
  case registered =>
    intro other allocationClass isRegistered
    obtain ⟨sized, has⟩ := supplied.registered other allocationClass isRegistered
    refine ⟨sized, ?_⟩
    show (Function.update run.allocator.threadInfo thread (some result) other).isSome = true
    by_cases same : other = thread
    · rw [same, Function.update_self]
      rfl
    · rw [Function.update_of_ne same]
      exact has
  case prepared =>
    intro other allocationClass isPrepared
    have differs : other ≠ thread := by
      intro same
      rw [same] at isPrepared
      exact waiting allocationClass isPrepared
    obtain ⟨group, isGroup, usable⟩ := supplied.prepared other allocationClass isPrepared
    refine ⟨group, ?_, usable⟩
    show Function.update _ _ _ _ = _
    rw [Function.update_of_ne differs]
    exact isGroup

theorem Supplied.refill (supplied : Supplied run) {allocator : ComputeNodeAllocator}
    (waiting : ∀ allocationClass, run.progress thread ≠ .prepared allocationClass)
    (refilled : run.allocator.refill thread = some allocator) :
    Supplied { run with allocator := allocator } := by
  obtain ⟨segment, isSource, isAllocator⟩ := Option.map_eq_some_iff.mp refilled
  obtain ⟨isCurrent, room⟩ := refillSource_some isSource
  rw [← isAllocator]
  exact supplied.install waiting isCurrent (length_offerPages pageGroupNo segment)
    (offerPages_refilled pageGroupNo segment room)

theorem Supplied.refillSinglePage (supplied : Supplied run) {allocator : ComputeNodeAllocator}
    (waiting : ∀ allocationClass, run.progress thread ≠ .prepared allocationClass)
    (isGroup : run.allocator.threadInfo thread = some group)
    (refilled : run.allocator.refillSinglePage thread group allocationClass = some allocator) :
    Supplied { run with allocator := allocator } := by
  obtain ⟨segment, isSource, isAllocator⟩ := Option.map_eq_some_iff.mp refilled
  obtain ⟨isCurrent, room⟩ := refillSource_some isSource
  have length := supplied.length thread group isGroup
  rw [← isAllocator]
  -- at most eight pages are replaced, and eight are available
  exact supplied.install waiting isCurrent ((length_refillPages _ _ _).trans length)
    (refillPages_refilled allocationClass group segment (length ▸ room))

/-- The thread's own place in its call, the others' as they are. -/
theorem Supplied.setProgress (supplied : Supplied run) (thread : ThreadId) {progress : Progress}
    (registered : ∀ allocationClass, progress = .registered allocationClass →
      allocationClass.Sized ∧ (run.allocator.threadInfo thread).isSome = true)
    (prepared : ∀ allocationClass, progress = .prepared allocationClass →
      run.allocator.Ready thread allocationClass) : Supplied (run.setProgress thread progress) where
  counted := supplied.counted
  length := supplied.length
  registered other allocationClass isRegistered := by
    change Function.update run.progress thread progress other = _ at isRegistered
    by_cases same : other = thread
    · rw [same, Function.update_self] at isRegistered
      rw [same]
      exact registered allocationClass isRegistered
    · rw [Function.update_of_ne same] at isRegistered
      exact supplied.registered other allocationClass isRegistered
  prepared other allocationClass isPrepared := by
    change Function.update run.progress thread progress other = _ at isPrepared
    by_cases same : other = thread
    · rw [same, Function.update_self] at isPrepared
      rw [same]
      exact prepared allocationClass isPrepared
    · rw [Function.update_of_ne same] at isPrepared
      exact supplied.prepared other allocationClass isPrepared

theorem Supplied.register (supplied : Supplied run) (isIdle : run.progress thread = .idle) (size : Nat) :
    Supplied (run.register thread size) := by
  have waiting : ∀ allocationClass, run.progress thread ≠ .prepared allocationClass := by
    intro allocationClass isPrepared
    rw [isIdle] at isPrepared
    cases isPrepared
  unfold AllocatorRun.register
  split
  next => exact supplied
  next allocator isRegistered =>
    have refilled : Supplied { run with allocator := allocator } := by
      have done := isRegistered
      unfold ComputeNodeAllocator.register at done
      split at done
      next => exact supplied.refill waiting done
      next =>
        rw [← Option.some.inj done]
        exact supplied
    apply refilled.setProgress
    · intro allocationClass isClass
      rw [← Progress.registered.inj isClass]
      exact ⟨getClass_sized size, register_isSome isRegistered⟩
    · intro allocationClass isClass
      cases isClass

theorem Supplied.prepare (supplied : Supplied run)
    (isRegistered : run.progress thread = .registered allocationClass) :
    Supplied (run.prepare thread allocationClass) := by
  have waiting : ∀ other, run.progress thread ≠ .prepared other := by
    intro other isPrepared
    rw [isRegistered] at isPrepared
    cases isPrepared
  obtain ⟨sized, hasGroup⟩ := supplied.registered thread allocationClass isRegistered
  obtain ⟨group, isGroup⟩ := Option.isSome_iff_exists.mp hasGroup
  unfold AllocatorRun.prepare
  split
  next =>
    apply supplied.setProgress
    · intro other isClass
      cases isClass
    · intro other isClass
      cases isClass
  next allocator isPrepared =>
    have refilled : Supplied { run with allocator := allocator } := by
      have done := isPrepared
      rw [prepare_eq isGroup] at done
      split at done
      next =>
        rw [← Option.some.inj done]
        exact supplied
      next => exact supplied.refillSinglePage waiting isGroup done
      next => exact supplied.refill waiting done
    apply refilled.setProgress
    · intro other isClass
      cases isClass
    · intro other isClass
      rw [← Progress.prepared.inj isClass]
      exact prepare_ready sized hasGroup isPrepared

theorem length_allocate (group : PageGroup) :
    (PageGroup.allocate allocationClass group).2.length = group.length := by
  induction group with
  | nil => rfl
  | cons first rest inductionHypothesis =>
      unfold PageGroup.allocate
      split
      next => rfl
      next =>
        show (_ :: _).length = _
        rw [List.length_cons, inductionHypothesis, List.length_cons]

theorem Supplied.take (supplied : Supplied run)
    (isPrepared : run.progress thread = .prepared allocationClass) :
    Supplied (run.take thread allocationClass) := by
  obtain ⟨group, isGroup, _⟩ := supplied.prepared thread allocationClass isPrepared
  have isTaken : run.allocator.allocateFrom thread allocationClass =
      ((PageGroup.allocate allocationClass group).1,
        run.allocator.setGroup thread (PageGroup.allocate allocationClass group).2) := by
    unfold ComputeNodeAllocator.allocateFrom
    rw [isGroup]
  -- the thread has left its call, so its group need not be ready for it any more
  have others : ∀ other allocationClass', Function.update run.progress thread .idle other =
      .prepared allocationClass' → other ≠ thread := by
    intro other _ isBusy same
    rw [same, Function.update_self] at isBusy
    cases isBusy
  unfold AllocatorRun.take
  rw [isTaken]
  constructor
  case counted => exact supplied.counted
  case length =>
    intro other otherGroup isOther
    rcases group_cases isOther with ⟨_, isResult⟩ | ⟨_, isOld⟩
    · rw [isResult, length_allocate]
      exact supplied.length thread group isGroup
    · exact supplied.length other otherGroup isOld
  case registered =>
    intro other otherClass isRegistered
    change Function.update run.progress thread .idle other = _ at isRegistered
    have differs : other ≠ thread := by
      intro same
      rw [same, Function.update_self] at isRegistered
      cases isRegistered
    rw [Function.update_of_ne differs] at isRegistered
    obtain ⟨sized, has⟩ := supplied.registered other otherClass isRegistered
    refine ⟨sized, ?_⟩
    show (Function.update run.allocator.threadInfo thread
      (some (PageGroup.allocate allocationClass group).2) other).isSome = true
    rw [Function.update_of_ne differs]
    exact has
  case prepared =>
    intro other otherClass isBusy
    have differs := others other otherClass isBusy
    change Function.update run.progress thread .idle other = _ at isBusy
    rw [Function.update_of_ne differs] at isBusy
    obtain ⟨otherGroup, isOther, usable⟩ := supplied.prepared other otherClass isBusy
    refine ⟨otherGroup, ?_, usable⟩
    show Function.update _ _ _ _ = _
    rw [Function.update_of_ne differs]
    exact isOther

theorem any_usable_free (group : PageGroup) (remote : RemotePointer) :
    (group.map fun page => page.free remote).any (PageGroup.usable allocationClass) =
      group.any (PageGroup.usable allocationClass) := by
  rw [List.any_map]
  congr 1
  funext page
  exact PageGroup.usable_free page remote

theorem Supplied.freeIn (supplied : Supplied run) (segment : Segment) (remote : RemotePointer) :
    Supplied { run with allocator := run.allocator.freeIn segment remote } := by
  unfold ComputeNodeAllocator.freeIn
  split
  next =>
    constructor
    case counted => exact supplied.counted
    case length =>
      intro thread group isGroup
      obtain ⟨old, isOld, isFreed⟩ := Option.map_eq_some_iff.mp isGroup
      rw [← isFreed, List.length_map]
      exact supplied.length thread old isOld
    case registered =>
      intro thread allocationClass isRegistered
      obtain ⟨sized, has⟩ := supplied.registered thread allocationClass isRegistered
      refine ⟨sized, ?_⟩
      show ((run.allocator.threadInfo thread).map _).isSome = true
      rw [Option.isSome_map]
      exact has
    case prepared =>
      intro thread allocationClass isPrepared
      obtain ⟨group, isGroup, usable⟩ := supplied.prepared thread allocationClass isPrepared
      refine ⟨_, Option.map_eq_some_iff.mpr ⟨group, isGroup, rfl⟩, ?_⟩
      rw [any_usable_free]
      exact usable
  next => exact supplied

theorem Supplied.free (supplied : Supplied run) {remote : RemotePointer}
    (isFreed : run.free remote = some next) : Supplied next := by
  have inAll : ∀ (segments : List Segment) (allocator : ComputeNodeAllocator),
      Supplied { run with allocator := allocator } →
      Supplied { run with
        allocator := segments.foldl (fun allocator segment => allocator.freeIn segment remote) allocator } := by
    intro segments
    induction segments with
    | nil => exact fun _ supplied => supplied
    | cons segment segments inductionHypothesis =>
        exact fun _ supplied => inductionHypothesis _ (supplied.freeIn segment remote)
  obtain ⟨current, _, isNext⟩ := Option.map_eq_some_iff.mp isFreed
  rw [← isNext]
  exact inAll _ run.allocator supplied

theorem Supplied.applyForMemory (supplied : Supplied run) (seg : Nat) : Supplied (run.applyForMemory seg) where
  counted segment isMember := by
    rcases List.mem_cons.mp isMember with isNew | isOld
    · rw [isNew]
      exact Segment.counted_make seg
    · exact supplied.counted segment isOld
  length := supplied.length
  registered := supplied.registered
  prepared := supplied.prepared

theorem Supplied.call (supplied : Supplied run) (call : Call run next) : Supplied next := by
  cases call with
  | applyForMemory seg => exact supplied.applyForMemory seg
  | register thread size isIdle => exact supplied.register isIdle size
  | prepare thread allocationClass isRegistered => exact supplied.prepare isRegistered
  | take thread allocationClass isPrepared => exact supplied.take isPrepared
  | free remote isFreed => exact supplied.free isFreed

theorem Called.supplied (called : Called run) : Supplied run := by
  induction called with
  | start => exact supplied_start
  | call _ call inductionHypothesis => exact inductionHypothesis.call call

/-- An allocation fails only when the current segment has too few pages. -/
structure FailsOnlyForPages (run : AllocatorRun) : Prop where
  agree : ∀ thread group, run.allocator.threadInfo thread = some group → ∀ size,
    group.available (getClass size) = .ok ↔ (PageGroup.allocate (getClass size) group).1.isSome = true
  /-- `refill_single_page` on `EmptyPage` -/
  refilledPage : ∀ thread group, run.allocator.threadInfo thread = some group → ∀ size next,
    group.available (getClass size) = .emptyPage →
    run.allocator.refillSinglePage thread group (getClass size) = some next →
    (next.allocateFrom thread (getClass size)).1.isSome = true
  /-- `refill` on `EmptyPageGroup` -/
  refilledGroup : ∀ thread size next, run.allocator.refill thread = some next →
    (next.allocateFrom thread (getClass size)).1.isSome = true
  whole : ∀ thread size, (run.allocator.allocate thread size).1 = none → run.allocator.Exhausted
  /-- The same for the phases of a call, with other threads' calls between them. -/
  phases : ∀ thread, (run.allocator.register thread = none → run.allocator.Exhausted) ∧
    (∀ allocationClass, run.allocator.prepare thread allocationClass = none → run.allocator.Exhausted) ∧
    ∀ allocationClass, run.progress thread = .prepared allocationClass →
      (run.allocator.allocateFrom thread allocationClass).1.isSome = true
  /-- All pages are offered or available: none was offered with `available_pages` at zero. -/
  counted : ∀ segment ∈ run.segments, segment.Counted

end AllocatorRun

end DiStore.Memory
