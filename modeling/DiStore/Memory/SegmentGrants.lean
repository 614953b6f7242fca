import DiStore.Memory.MemoryNodeAllocator

/-!
Contract: whole runs of calls on a memory node's allocator.

Owns: the segments granted and not yet given back, the invariant that ties them to the
bits of the map, single ownership in every state reached, and when every grant lies in
the memory that the node owns.

A `deallocate` is permitted on a granted segment only.
-/

set_option autoImplicit false

namespace DiStore.Memory

inductive SegmentCall where
  | allocate
  | deallocate (segment : Nat)
deriving DecidableEq

/-- An allocator, and the segments it has granted and not got back. -/
structure Grants where
  allocator : MemoryNodeAllocator
  granted : List Nat

namespace Grants

variable (state : Grants)

def call : SegmentCall → Grants
  | .allocate =>
      match state.allocator.allocate with
      | (some segment, allocator) => ⟨allocator, segment :: state.granted⟩
      | (none, allocator) => ⟨allocator, state.granted⟩
  | .deallocate segment => ⟨state.allocator.deallocate segment, state.granted.erase segment⟩

/-- The state after a sequence of calls. -/
def after (calls : List SegmentCall) : Grants := calls.foldl call state

/-- Only granted segments are given back. -/
def Permitted : Grants → List SegmentCall → Prop
  | _, [] => True
  | state, .allocate :: calls => Permitted (state.call .allocate) calls
  | state, .deallocate segment :: calls =>
      segment ∈ state.granted ∧ Permitted (state.call (.deallocate segment)) calls

instance decidablePermitted : (state : Grants) → (calls : List SegmentCall) → Decidable (Permitted state calls)
  | _, [] => .isTrue trivial
  | state, .allocate :: calls => decidablePermitted (state.call .allocate) calls
  | state, .deallocate segment :: calls =>
      have := decidablePermitted (state.call (.deallocate segment)) calls
      inferInstanceAs (Decidable (_ ∧ _))

/-- The segments that the allocations of a sequence of calls return. -/
def returned : Grants → List SegmentCall → List Nat
  | _, [] => []
  | state, .allocate :: calls =>
      state.allocator.allocate.1.toList ++ returned (state.call .allocate) calls
  | state, .deallocate segment :: calls => returned (state.call (.deallocate segment)) calls

/-- `make_bitmap` for `count` segments, nothing granted. -/
def start (region : Nat) (memory : Nat → UInt8) (count : Nat) : Grants :=
  ⟨⟨region, .makeBitmap memory count⟩, []⟩

/-- Every bit of the map is set. -/
def Full : Prop := ∀ no < state.allocator.bitmap.bytes * 8, state.allocator.bitmap.isSet no = true

instance : Decidable state.Full := by
  unfold Full
  infer_instance

/-- The bits that are set are those of the granted segments. -/
structure Recorded (state : Grants) : Prop where
  once : state.granted.Nodup
  known : ∀ segment ∈ state.granted, ∃ no < state.allocator.bitmap.bytes * 8,
    segment = state.allocator.segmentAt no
  set : ∀ no < state.allocator.bitmap.bytes * 8,
    state.allocator.bitmap.isSet no = true ↔ state.allocator.segmentAt no ∈ state.granted

theorem recorded_start (region : Nat) (memory : Nat → UInt8) (count : Nat) :
    (start region memory count).Recorded where
  once := List.nodup_nil
  known _ isMember := by cases isMember
  set no inside := by
    have clear : (Bitmap.makeBitmap memory count).isSet no = false := Bitmap.isSet_makeBitmap inside
    change (Bitmap.makeBitmap memory count).isSet no = true ↔ _ ∈ []
    rw [clear]
    simp

/-- What one `allocate` does: the lowest segment not granted, or nothing to a full map. -/
theorem Recorded.allocate_cases {state : Grants} (recorded : state.Recorded) :
    (∃ no allocator, state.allocator.allocate = (some (state.allocator.segmentAt no), allocator) ∧
      no < state.allocator.bitmap.bytes * 8 ∧ state.allocator.segmentAt no ∉ state.granted ∧
      (∀ lower < no, state.allocator.segmentAt lower ∈ state.granted) ∧
      allocator.region = state.allocator.region ∧
      allocator.bitmap.bytes = state.allocator.bitmap.bytes ∧
      ∀ pos, allocator.bitmap.isSet pos = (state.allocator.bitmap.isSet pos || pos == no)) ∨
    (state.Full ∧ state.allocator.allocate = (none, state.allocator)) := by
  unfold MemoryNodeAllocator.allocate
  rcases Bitmap.getEmpty_cases state.allocator.bitmap with
    ⟨no, bitmap, found, bytes, inside, clear, lowerSet, sets⟩ | ⟨full, found⟩
  · rw [found]
    refine Or.inl ⟨no, _, rfl, inside, ?_, ?_, rfl, bytes, sets⟩
    · rw [← recorded.set no inside, clear]
      exact Bool.false_ne_true
    · intro lower below
      exact (recorded.set lower (below.trans inside)).mp (lowerSet lower below)
  · rw [found]
    exact Or.inr ⟨full, rfl⟩

theorem Recorded.call {state : Grants} (recorded : state.Recorded) (call : SegmentCall)
    (permitted : Permitted state [call]) : (state.call call).Recorded := by
  cases call with
  | allocate =>
      unfold Grants.call
      rcases recorded.allocate_cases with
        ⟨no, allocator, returns, inside, isNew, _, region, bytes, sets⟩ | ⟨_, returns⟩
      · have sameAt : ∀ pos, allocator.segmentAt pos = state.allocator.segmentAt pos := by
          intro pos
          unfold MemoryNodeAllocator.segmentAt
          rw [region]
        rw [returns]
        constructor
        · exact List.nodup_cons.mpr ⟨isNew, recorded.once⟩
        · intro segment isMember
          change ∃ pos < allocator.bitmap.bytes * 8, segment = allocator.segmentAt pos
          rw [bytes]
          simp only [sameAt]
          rcases List.mem_cons.mp isMember with isFirst | old
          · exact ⟨no, inside, isFirst⟩
          · exact recorded.known segment old
        · intro pos within
          change allocator.bitmap.isSet pos = true ↔ allocator.segmentAt pos ∈ _ :: _
          change pos < allocator.bitmap.bytes * 8 at within
          rw [bytes] at within
          rw [sets, sameAt, Bool.or_eq_true, beq_iff_eq, recorded.set pos within, List.mem_cons,
            MemoryNodeAllocator.segmentAt_inj]
          exact or_comm
      · rw [returns]
        exact recorded
  | deallocate segment =>
      obtain ⟨no, inside, isSegment⟩ := recorded.known segment permitted.1
      unfold Grants.call
      simp only
      rw [isSegment, MemoryNodeAllocator.deallocate_segmentAt]
      constructor
      · exact recorded.once.erase _
      · intro other isMember
        exact recorded.known other (List.mem_of_mem_erase isMember)
      · intro pos within
        change (state.allocator.bitmap.unset no).isSet pos = true ↔
          state.allocator.segmentAt pos ∈ state.granted.erase (state.allocator.segmentAt no)
        rw [Bitmap.isSet_unset, Bool.and_eq_true, bne_iff_ne, recorded.set pos within,
          recorded.once.mem_erase_iff, ne_eq, ne_eq, MemoryNodeAllocator.segmentAt_inj]
        exact and_comm

theorem permitted_cons {state : Grants} {call : SegmentCall} {calls : List SegmentCall}
    (permitted : Permitted state (call :: calls)) :
    Permitted state [call] ∧ Permitted (state.call call) calls := by
  cases call with
  | allocate => exact ⟨trivial, permitted⟩
  | deallocate segment => exact ⟨⟨permitted.1, trivial⟩, permitted.2⟩

theorem Recorded.after {state : Grants} (recorded : state.Recorded) {calls : List SegmentCall}
    (permitted : Permitted state calls) : (state.after calls).Recorded := by
  induction calls generalizing state with
  | nil => exact recorded
  | cons call calls ih =>
      obtain ⟨first, rest⟩ := permitted_cons permitted
      exact ih (recorded.call call first) rest

/-! ### One owner at a time -/

/-- No segment is granted twice: what the next call of either kind does to the grants. -/
structure GrantedOnce (state : Grants) : Prop where
  /-- the lowest segment that is not granted -/
  lowest : ∀ segment, state.allocator.allocate.1 = some segment →
    segment ∉ state.granted ∧ ∃ no < state.allocator.bitmap.bytes * 8,
      segment = state.allocator.segmentAt no ∧
      ∀ lower < no, state.allocator.segmentAt lower ∈ state.granted
  null : state.allocator.allocate.1 = none ↔ state.Full
  status : ∀ no < state.allocator.bitmap.bytes * 8,
    state.allocator.bitmap.isSet no = true ↔ state.allocator.segmentAt no ∈ state.granted
  givenBack : ∀ segment ∈ state.granted, ∀ no,
    (state.allocator.deallocate segment).bitmap.isSet no =
      (state.allocator.bitmap.isSet no && state.allocator.segmentAt no != segment)

/-- In every state reached, for every size of the map. -/
theorem segments_granted_once (region : Nat) (memory : Nat → UInt8) (count : Nat)
    (calls : List SegmentCall) (permitted : Permitted (start region memory count) calls) :
    GrantedOnce ((start region memory count).after calls) := by
  have recorded := (recorded_start region memory count).after permitted
  constructor
  · intro segment returns
    rcases recorded.allocate_cases with ⟨no, _, found, inside, isNew, lower, _⟩ | ⟨_, found⟩
    · rw [found] at returns
      rw [← Option.some.inj returns]
      exact ⟨isNew, no, inside, rfl, lower⟩
    · rw [found] at returns
      cases returns
  · rcases recorded.allocate_cases with ⟨no, _, found, inside, isNew, _⟩ | ⟨full, found⟩
    · rw [found]
      apply iff_of_false (by simp)
      intro full
      exact isNew ((recorded.set no inside).mp (full no inside))
    · rw [found]
      exact iff_of_true rfl full
  · exact recorded.set
  · intro segment isMember no
    obtain ⟨own, _, isSegment⟩ := recorded.known segment isMember
    rw [isSegment, MemoryNodeAllocator.deallocate_segmentAt]
    change (Bitmap.unset _ own).isSet no = _
    rw [Bitmap.isSet_unset]
    congr 1
    rw [Bool.eq_iff_iff, bne_iff_ne, bne_iff_ne, ne_eq, ne_eq, MemoryNodeAllocator.segmentAt_inj]

/-- A segment that came back is granted again. -/
theorem regranted_once :
    GrantedOnce ((start 4096 (fun _ => 0) 3).after
      [.allocate, .allocate, .deallocate 8192, .allocate]) :=
  segments_granted_once 4096 (fun _ => 0) 3 _ (by decide +kernel)

/-! ### Memory that the node owns -/

/-- Every segment returned lies in the buffer behind its header page, and the advertised
window is that part of the buffer. -/
structure GrantsOwned (mem : Nat) (memory : Nat → UInt8) (cap : Nat) (calls : List SegmentCall) : Prop where
  window : advertisedBase mem + advertisedCap cap = mem + cap
  owned : ∀ segment ∈ returned ⟨.makeAllocator mem memory cap, []⟩ calls,
    mem + memoryPageSize ≤ segment ∧ segment + segmentSize ≤ mem + cap

/-- Some segment that ends inside the `cap` bytes is not granted. -/
def FittingFree (cap : Nat) (state : Grants) : Prop :=
  ∃ no, memoryPageSize + (no + 1) * segmentSize ≤ cap ∧ state.allocator.segmentAt no ∉ state.granted

/-- Every allocation meets a full map or a free segment that ends inside the `cap` bytes. -/
def AlwaysFitting (cap : Nat) : Grants → List SegmentCall → Prop
  | _, [] => True
  | state, .allocate :: calls =>
      (state.Full ∨ FittingFree cap state) ∧ AlwaysFitting cap (state.call .allocate) calls
  | state, .deallocate segment :: calls => AlwaysFitting cap (state.call (.deallocate segment)) calls

theorem advertised_iff {mem cap : Nat} (range : cap < 2 ^ 63) :
    advertisedBase mem + advertisedCap cap = mem + cap ↔ memoryPageSize ≤ cap := by
  unfold advertisedBase advertisedCap memoryPageSize
  omega

theorem region_call (state : Grants) (call : SegmentCall) :
    (state.call call).allocator.region = state.allocator.region := by
  cases call with
  | allocate =>
      unfold Grants.call MemoryNodeAllocator.allocate
      rcases Bitmap.getEmpty_cases state.allocator.bitmap with ⟨_, _, found, _⟩ | ⟨_, found⟩
      · rw [found]
      · rw [found]
  | deallocate segment => rfl

/-- One allocation returns a segment inside the buffer exactly when one is free. -/
theorem Recorded.returned_owned_iff {state : Grants} (recorded : state.Recorded) (cap : Nat) :
    (∀ segment ∈ state.allocator.allocate.1.toList,
      state.allocator.region + memoryPageSize ≤ segment ∧
        segment + segmentSize ≤ state.allocator.region + cap) ↔
    state.Full ∨ FittingFree cap state := by
  have size : 0 < segmentSize := by decide
  rcases recorded.allocate_cases with ⟨no, _, found, inside, isNew, lower, _⟩ | ⟨full, found⟩
  · rw [found]
    have notFull : ¬ state.Full := fun full => isNew ((recorded.set no inside).mp (full no inside))
    simp only [Option.toList_some, List.mem_singleton, forall_eq, notFull, false_or]
    constructor
    · rintro ⟨_, fits⟩
      refine ⟨no, ?_, isNew⟩
      unfold MemoryNodeAllocator.segmentAt at fits
      rw [Nat.add_mul]
      omega
    · rintro ⟨free, fits, isFree⟩
      -- the segment returned is the lowest, so it ends no later
      have low : no ≤ free := by
        by_contra above
        exact isFree (lower free (by omega))
      have least := Nat.mul_le_mul_right segmentSize (Nat.add_le_add_right low 1)
      rw [Nat.add_mul no 1] at least
      unfold MemoryNodeAllocator.segmentAt
      omega
  · rw [found]
    exact iff_of_true (fun _ isMember => by cases isMember) (Or.inl full)

/-- The same over a sequence of calls. -/
theorem Recorded.all_owned_iff {state : Grants} (recorded : state.Recorded) (cap : Nat)
    {calls : List SegmentCall} (permitted : Permitted state calls) :
    (∀ segment ∈ returned state calls,
      state.allocator.region + memoryPageSize ≤ segment ∧
        segment + segmentSize ≤ state.allocator.region + cap) ↔
    AlwaysFitting cap state calls := by
  induction calls generalizing state with
  | nil => exact iff_of_true (fun _ isMember => by cases isMember) trivial
  | cons call calls ih =>
      obtain ⟨first, rest⟩ := permitted_cons permitted
      have later := ih (recorded.call call first) rest
      rw [region_call] at later
      cases call with
      | allocate =>
          unfold returned AlwaysFitting
          rw [← recorded.returned_owned_iff, ← later]
          exact List.forall_mem_append
      | deallocate segment => exact later

/-- A memory node grants only what it owns in exactly the runs whose allocations all meet
a full map or a free segment inside the buffer, of at least a page. -/
theorem grants_owned_iff (mem : Nat) (memory : Nat → UInt8) {cap : Nat} (range : cap < 2 ^ 63)
    {calls : List SegmentCall} (permitted : Permitted ⟨.makeAllocator mem memory cap, []⟩ calls) :
    GrantsOwned mem memory cap calls ↔
      memoryPageSize ≤ cap ∧ AlwaysFitting cap ⟨.makeAllocator mem memory cap, []⟩ calls := by
  have recorded : Recorded ⟨.makeAllocator mem memory cap, []⟩ :=
    recorded_start mem memory (cap / segmentSize)
  have owned := recorded.all_owned_iff cap permitted
  have advertised : advertisedBase mem + advertisedCap cap = mem + cap ↔ memoryPageSize ≤ cap :=
    advertised_iff range
  rw [← owned, ← advertised]
  exact ⟨fun grants => ⟨grants.window, grants.owned⟩, fun both => ⟨both.1, both.2⟩⟩

/-- One segment of a node with nine GiB. -/
theorem one_grant_owned : GrantsOwned 4096 (fun _ => 0) (9 * segmentSize) [.allocate] :=
  (grants_owned_iff 4096 (fun _ => 0) (by decide) (by decide +kernel)).mpr
    ⟨by decide, Or.inr ⟨0, by decide, List.not_mem_nil⟩, trivial⟩

/-- The eighth segment of a node with eight GiB ends a page behind its buffer. -/
theorem eighth_grant_not_owned :
    Permitted ⟨.makeAllocator 4096 (fun _ => 0) (8 * segmentSize), []⟩ (List.replicate 8 .allocate) ∧
      ¬ GrantsOwned 4096 (fun _ => 0) (8 * segmentSize) (List.replicate 8 .allocate) := by
  refine ⟨by decide +kernel, ?_⟩
  intro grants
  have last := grants.owned (4096 + memoryPageSize + 7 * segmentSize) (by decide +kernel)
  exact absurd last.2 (by decide)

end Grants

end DiStore.Memory
