import DiStore.Memory.Fresh
import Mathlib.Data.List.Nodup

/-!
Contract: the slots of one page.

Owns: a run of allocations from a page, the chunks it hands out, and for which classes its
two byte counters count them.

Does not own: which page a thread allocates from (`Memory.Refills`).
-/

set_option autoImplicit false

namespace DiStore.Memory

/-- `MEMORY_PAGE_SIZE / allocation_class_size_map[ac]`. -/
def AllocationClass.slots (allocationClass : AllocationClass) : Nat := memoryPageSize / allocationClass.size

namespace PageMirror

/-- A number of allocations, each made only when the page is available: the chunks and the page
after them, or `none` when one of the calls is not made. -/
def allocations (page : PageMirror) : Nat → Option (List RemotePointer × PageMirror)
  | 0 => some ([], page)
  | count + 1 =>
      match page.allocations count with
      | none => none
      | some (chunks, last) =>
          if last.available then some (chunks ++ [last.allocate.1], last.allocate.2) else none

/-- The counters after any run of allocations are numbers of chunks, and the page hands out
as many different chunks as fit. -/
structure CountsSlots (page : PageMirror) : Prop where
  counters : ∀ count chunks last, page.allocations count = some (chunks, last) →
    last.offset.toNat = count ∧
      last.emptySlots.toNat + count = page.allocationClass.slots ∧
      (last.available = true ↔ count < page.allocationClass.slots)
  handsOut : ∃ chunks last, page.allocations page.allocationClass.slots = some (chunks, last) ∧
    chunks.length = page.allocationClass.slots ∧ chunks.Nodup ∧
    (∀ chunk ∈ chunks, page.pageBase ≤ chunk ∧
      chunk + page.allocationClass.size ≤ page.pageBase + memoryPageSize) ∧
    page.allocations (page.allocationClass.slots + 1) = none

variable {page last : PageMirror} {allocationClass : AllocationClass} {count : Nat} {chunks : List RemotePointer}

/-- A page as `desc.initialize` leaves it, after some allocations. -/
structure Counted (page last : PageMirror) (count : Nat) (chunks : List RemotePointer) : Prop where
  within : count ≤ page.allocationClass.slots
  pageBase : last.pageBase = page.pageBase
  allocationClass : last.allocationClass = page.allocationClass
  offset : last.offset.toNat = count
  emptySlots : last.emptySlots.toNat + count = page.allocationClass.slots
  chunks : chunks = (List.range count).map fun slot => page.pageBase + slot * page.allocationClass.size

theorem Counted.available_iff (counted : Counted page last count chunks) :
    last.available = true ↔ count < page.allocationClass.slots := by
  unfold PageMirror.available
  rw [decide_eq_true_iff, counted.offset, counted.allocationClass]
  rfl

theorem counted_initialized (page : PageMirror) (counts : allocationClass.Counted) :
    Counted (page.descInitialize allocationClass) (page.descInitialize allocationClass) 0 [] where
  within := Nat.zero_le _
  pageBase := rfl
  allocationClass := rfl
  offset := rfl
  emptySlots := by
    show (UInt8.ofNat (memoryPageSize / allocationClass.size)).toNat + 0 = memoryPageSize / allocationClass.size
    rw [Nat.add_zero, UInt8.toNat_ofNat']
    exact Nat.mod_eq_of_lt counts.bound.2
  chunks := rfl

/-- One allocation. -/
theorem Counted.allocate (counted : Counted page last count chunks) (few : page.allocationClass.slots < 256)
    (available : last.available = true) :
    Counted page last.allocate.2 (count + 1) (chunks ++ [last.allocate.1]) := by
  have room := counted.available_iff.mp available
  have emptySlots := counted.emptySlots
  constructor
  case within => exact room
  case pageBase => exact counted.pageBase
  case allocationClass => exact counted.allocationClass
  case offset =>
    show (last.offset + 1).toNat = count + 1
    rw [UInt8.toNat_add, counted.offset]
    exact Nat.mod_eq_of_lt (by show count + 1 < 256; omega)
  case emptySlots =>
    show (last.emptySlots - 1).toNat + (count + 1) = _
    rw [UInt8.toNat_sub_of_le _ _ (UInt8.le_iff_toNat_le.mpr (by show 1 ≤ last.emptySlots.toNat; omega))]
    show last.emptySlots.toNat - 1 + (count + 1) = _
    omega
  case chunks =>
    rw [counted.chunks, List.range_succ, List.map_append, List.map_singleton]
    show _ ++ [last.pageBase + last.offset.toNat * last.allocationClass.size] = _
    rw [counted.pageBase, counted.offset, counted.allocationClass]

/-- A run of allocations, by induction on their number. -/
theorem counted_of_allocations (counts : allocationClass.Counted)
    (ran : (page.descInitialize allocationClass).allocations count = some (chunks, last)) :
    Counted (page.descInitialize allocationClass) last count chunks := by
  induction count generalizing chunks last with
  | zero =>
      obtain ⟨isChunks, isLast⟩ := Prod.mk.inj (Option.some.inj ran)
      rw [← isChunks, ← isLast]
      exact counted_initialized page counts
  | succ count inductionHypothesis =>
      unfold allocations at ran
      split at ran
      next => cases ran
      next earlier middle isMiddle =>
        split at ran
        next available =>
          obtain ⟨isChunks, isLast⟩ := Prod.mk.inj (Option.some.inj ran)
          rw [← isChunks, ← isLast]
          exact (inductionHypothesis isMiddle).allocate counts.bound.2 available
        next => cases ran

/-- As long as there are slots, the next call is made. -/
theorem allocations_isSome (counts : allocationClass.Counted) (within : count ≤ allocationClass.slots) :
    ∃ chunks last, (page.descInitialize allocationClass).allocations count = some (chunks, last) := by
  induction count with
  | zero => exact ⟨[], _, rfl⟩
  | succ count inductionHypothesis =>
      obtain ⟨chunks, last, ran⟩ := inductionHypothesis (by omega)
      have available := (counted_of_allocations counts ran).available_iff.mpr within
      unfold allocations
      rw [ran]
      show ∃ _ _, (if last.available = true then _ else none) = some _
      rw [if_pos available]
      exact ⟨_, _, rfl⟩

/-- A page of the class hands out as many chunks as fit, without repeating one. -/
theorem countsSlots (page : PageMirror) (counts : allocationClass.Counted) :
    (page.descInitialize allocationClass).CountsSlots := by
  constructor
  case counters =>
    intro count chunks last ran
    have counted := counted_of_allocations counts ran
    exact ⟨counted.offset, counted.emptySlots, counted.available_iff⟩
  case handsOut =>
    have isClass : (page.descInitialize allocationClass).allocationClass = allocationClass := rfl
    obtain ⟨chunks, last, ran⟩ := @allocations_isSome page _ _ counts (le_refl allocationClass.slots)
    have counted := counted_of_allocations counts ran
    have isChunks := counted.chunks
    rw [isClass] at isChunks ⊢
    have positive : 0 < allocationClass.size := by
      have large := counts.1
      omega
    refine ⟨chunks, last, ran, ?_, ?_, ?_, ?_⟩
    · rw [isChunks, List.length_map, List.length_range]
    · rw [isChunks]
      apply List.Nodup.map _ List.nodup_range
      intro left right same
      exact Nat.eq_of_mul_eq_mul_right positive (Nat.add_left_cancel same)
    · intro chunk isMember
      rw [isChunks] at isMember
      obtain ⟨slot, inRange, isChunk⟩ := List.mem_map.mp isMember
      have inside := Nat.mul_le_mul_right allocationClass.size (show slot + 1 ≤ allocationClass.slots from
        List.mem_range.mp inRange)
      rw [AllocationClass.slots, counts.2, Nat.add_mul, Nat.one_mul] at inside
      rw [← isChunk, Nat.add_assoc]
      exact ⟨Nat.le_add_right _ _, Nat.add_le_add_left inside _⟩
    · have full : last.available = false := by
        rw [Bool.eq_false_iff]
        intro available
        exact lt_irrefl _ (counted.available_iff.mp available)
      unfold allocations
      rw [ran]
      show (if last.available = true then _ else none) = none
      rw [if_neg (by rw [full]; exact Bool.false_ne_true)]

/-- The 256 chunks of sixteen bytes are none in a byte. -/
theorem not_countsSlots_sixteen (page : PageMirror) : ¬ (page.descInitialize .chunk16).CountsSlots := by
  intro counts
  have none := (counts.counters 0 [] _ rfl).2.1
  exact absurd none (by decide : ¬ (UInt8.ofNat (memoryPageSize / 16)).toNat + 0 = memoryPageSize / 16)

end PageMirror

/-- Up to sixteen bytes get the smallest class, all others a class that a byte counts. -/
theorem getClass_cases {size : Nat} (small : size ≤ memoryPageSize) :
    (size ≤ 16 ∧ getClass size = .chunk16) ∨ (16 < size ∧ (getClass size).Counted) := by
  by_cases large : 16 < size
  · exact Or.inr ⟨large, (getClass_spec large small).1⟩
  · apply Or.inl
    refine ⟨not_lt.mp large, ?_⟩
    unfold getClass
    rw [show (size - 1) / 16 = 0 by omega]
    rfl

/-- The counters of a page do not wrap if and only if its chunks are larger than sixteen bytes. -/
theorem page_counts_iff (page : PageMirror) {allocationClass : AllocationClass}
    (returned : ∃ size, 0 < size ∧ size ≤ memoryPageSize ∧ getClass size = allocationClass) :
    (page.descInitialize allocationClass).CountsSlots ↔ allocationClass ≠ .chunk16 := by
  obtain ⟨size, _, small, isClass⟩ := returned
  rw [← isClass]
  rcases getClass_cases small with ⟨_, isSixteen⟩ | ⟨_, counts⟩
  · rw [isSixteen]
    exact iff_of_false (PageMirror.not_countsSlots_sixteen page) (fun differs => differs rfl)
  · apply iff_of_true (PageMirror.countsSlots page counts)
    intro isSixteen
    rw [isSixteen] at counts
    exact lt_irrefl _ counts.1

theorem page_of_data_nodes_counts : ((PageMirror.cleared 4096).descInitialize .chunk512).CountsSlots :=
  (page_counts_iff (.cleared 4096) ⟨368, by decide, by decide, by decide +kernel⟩).mpr (by decide)

theorem page_of_sixteen_miscounts :
    ¬ ∀ (page : PageMirror) (allocationClass : AllocationClass),
      (∃ size, 0 < size ∧ size ≤ memoryPageSize ∧ getClass size = allocationClass) →
      (page.descInitialize allocationClass).CountsSlots := by
  intro counts
  have sixteen := counts (.cleared 4096) .chunk16 ⟨16, by decide, by decide, by decide +kernel⟩
  have wrapped := (sixteen.counters 0 [] _ rfl).2.1
  revert wrapped
  decide

end DiStore.Memory
