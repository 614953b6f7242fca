import DiStore.Memory.ComputeNodeAllocator

/-!
Contract: the allocator of segments on a memory node.

Owns: `Bitmap`, `MemoryNodeAllocator`, the window that `initialize_memory`
advertises, and what one call does to the bits of the map.

Does not own: runs of calls (`Memory.SegmentGrants`). The map lies in the header
page of the region; nothing modelled writes there but these calls. Addresses of a
process are far below `2^64`, so address arithmetic is that of natural numbers.
-/

set_option autoImplicit false

namespace DiStore.Memory

/-- `Constants::byte_masks`. -/
def byteMask : Nat → UInt8
  | 0 => 1
  | 1 => 2
  | 2 => 4
  | 3 => 8
  | 4 => 16
  | 5 => 32
  | 6 => 64
  | 7 => 128
  | _ => 0

structure Bitmap where
  bytes : Nat
  map : Nat → UInt8

namespace Bitmap

/-- `make_bitmap` over the bytes of a region; it always keeps one byte. -/
def makeBitmap (region : Nat → UInt8) (count : Nat) : Bitmap where
  bytes := count / 8 + 1
  map := fun index => if index < count / 8 + 1 then 0 else region index

/-- The inner loop of `get_empty`. -/
def emptyBit (byte : UInt8) : Option Nat :=
  (List.range 8).find? fun bit => byte &&& byteMask bit == 0

variable (bitmap : Bitmap)

/-- Where the two loops of `get_empty` stop. -/
def firstEmpty : Option (Nat × Nat) :=
  (List.range bitmap.bytes).findSome? fun index =>
    (emptyBit (bitmap.map index)).map fun bit => (index, bit)

def getEmpty : Option Nat × Bitmap :=
  match bitmap.firstEmpty with
  | some (index, bit) =>
      (some (index * 8 + bit),
        { bitmap with map := Function.update bitmap.map index (bitmap.map index ||| byteMask bit) })
  | none => (none, bitmap)

def unset (pos : Nat) : Bitmap :=
  { bitmap with
    map := Function.update bitmap.map (pos / 8) (bitmap.map (pos / 8) &&& ~~~byteMask (pos % 8)) }

/-- Bit `pos` of the map. -/
def isSet (pos : Nat) : Bool := bitmap.map (pos / 8) &&& byteMask (pos % 8) != 0

end Bitmap

/-- The header of a region, at address `region`. -/
structure MemoryNodeAllocator where
  region : Nat
  bitmap : Bitmap

namespace MemoryNodeAllocator

/-- `make_allocator`; `memory` is what the region holds behind the `bytes` field. -/
def makeAllocator (region : Nat) (memory : Nat → UInt8) (memorySize : Nat) : MemoryNodeAllocator :=
  ⟨region, .makeBitmap memory (memorySize / segmentSize)⟩

variable (allocator : MemoryNodeAllocator)

/-- The address of segment `no`. -/
def segmentAt (no : Nat) : Nat := allocator.region + memoryPageSize + no * segmentSize

/-- `allocate`; `none` is `nullptr`. -/
def allocate : Option Nat × MemoryNodeAllocator :=
  match allocator.bitmap.getEmpty with
  | (some no, bitmap) => (some (allocator.segmentAt no), { allocator with bitmap := bitmap })
  | (none, bitmap) => (none, { allocator with bitmap := bitmap })

def deallocate (segment : Nat) : MemoryNodeAllocator :=
  let off := segment - allocator.region - memoryPageSize
  { allocator with bitmap := allocator.bitmap.unset (off / segmentSize) }

end MemoryNodeAllocator

/-- What `initialize_memory` advertises for `cap` bytes at `mem`: `base_addr`, and
`self_info.cap`, a difference of unsigned numbers. -/
def advertisedBase (mem : Nat) : Nat := mem + memoryPageSize

def advertisedCap (cap : Nat) : Nat := (cap + 2 ^ 64 - memoryPageSize) % 2 ^ 64

/-! ### The bits of a byte -/

theorem byteMask_and (bit other : Fin 8) :
    byteMask bit &&& byteMask other = if bit = other then byteMask other else 0 := by
  revert bit other
  decide

theorem not_byteMask_and (bit other : Fin 8) :
    ~~~byteMask bit &&& byteMask other = if bit = other then 0 else byteMask other := by
  revert bit other
  decide

theorem byteMask_ne_zero (bit : Fin 8) : byteMask bit ≠ 0 := by
  revert bit
  decide

theorem and_or_mask (byte left right : UInt8) :
    (byte ||| left) &&& right = (byte &&& right) ||| (left &&& right) := by
  apply UInt8.toBitVec_inj.mp
  simp only [UInt8.toBitVec_and, UInt8.toBitVec_or]
  ext index bound
  simp [Bool.and_or_distrib_right]

theorem or_mask_clear_iff (byte : UInt8) (bit other : Fin 8) :
    (byte ||| byteMask bit) &&& byteMask other = 0 ↔ bit ≠ other ∧ byte &&& byteMask other = 0 := by
  rw [and_or_mask, UInt8.or_eq_zero_iff, byteMask_and]
  by_cases same : bit = other
  · simp [same, byteMask_ne_zero]
  · simp [same]

theorem and_not_mask_clear_iff (byte : UInt8) (bit other : Fin 8) :
    (byte &&& ~~~byteMask bit) &&& byteMask other = 0 ↔ bit = other ∨ byte &&& byteMask other = 0 := by
  rw [UInt8.and_assoc, not_byteMask_and]
  by_cases same : bit = other
  · simp [same]
  · simp [same]

namespace Bitmap

variable {bitmap : Bitmap}

theorem isSet_eq_false_iff (pos : Nat) :
    bitmap.isSet pos = false ↔ bitmap.map (pos / 8) &&& byteMask (pos % 8) = 0 := by
  simp [isSet]

theorem isSet_makeBitmap {region : Nat → UInt8} {count pos : Nat} (inside : pos < (count / 8 + 1) * 8) :
    (makeBitmap region count).isSet pos = false := by
  have low : pos / 8 < count / 8 + 1 := by omega
  rw [isSet_eq_false_iff]
  simp only [makeBitmap, if_pos low, UInt8.zero_and]

/-- A write of one byte, as seen by a bit of the map. -/
theorem isSet_update (pos other : Nat) (byte : UInt8) :
    ({ bitmap with map := Function.update bitmap.map (pos / 8) byte } : Bitmap).isSet other =
      if other / 8 = pos / 8 then byte &&& byteMask (other % 8) != 0 else bitmap.isSet other := by
  unfold isSet
  by_cases same : other / 8 = pos / 8
  · simp [same]
  · simp [same]

theorem isSet_unset (pos other : Nat) :
    (bitmap.unset pos).isSet other = (bitmap.isSet other && other != pos) := by
  unfold unset
  rw [isSet_update]
  by_cases same : other / 8 = pos / 8
  · rw [if_pos same]
    have clear := and_not_mask_clear_iff (bitmap.map (pos / 8)) ⟨pos % 8, Nat.mod_lt _ (by decide)⟩
      ⟨other % 8, Nat.mod_lt _ (by decide)⟩
    have isPos : pos % 8 = other % 8 ↔ other = pos := by omega
    rw [Fin.mk.injEq, isPos] at clear
    rw [isSet, same, Bool.eq_iff_iff]
    simp only [bne_iff_ne, ne_eq, clear, Bool.and_eq_true]
    tauto
  · have differs : other ≠ pos := fun isPos => same (by rw [isPos])
    rw [if_neg same, bne_iff_ne.mpr differs, Bool.and_true]

theorem findSome?_range_eq_some {α : Type} {search : Nat → Option α} {count : Nat} {found : α} :
    (List.range count).findSome? search = some found ↔
      ∃ index < count, search index = some found ∧ ∀ earlier < index, search earlier = none := by
  induction count with
  | zero => simp
  | succ count ih =>
      rw [List.range_succ, List.findSome?_append]
      cases before : (List.range count).findSome? search with
      | some early =>
          rw [before] at ih
          rw [Option.some_or, ih]
          constructor
          · rintro ⟨index, bound, facts⟩
            exact ⟨index, bound.trans (Nat.lt_succ_self _), facts⟩
          · rintro ⟨index, bound, facts⟩
            refine ⟨index, ?_, facts⟩
            by_contra beyond
            have isLast : index = count := by omega
            have missing : (List.range count).findSome? search = none := by
              rw [List.findSome?_eq_none_iff]
              intro earlier isMember
              exact facts.2 earlier (by rw [isLast]; exact List.mem_range.mp isMember)
            rw [missing] at before
            cases before
      | none =>
          rw [List.findSome?_eq_none_iff] at before
          rw [Option.none_or, List.findSome?_singleton]
          constructor
          · intro isFound
            exact ⟨count, Nat.lt_succ_self _, isFound,
              fun earlier below => before earlier (List.mem_range.mpr below)⟩
          · rintro ⟨index, bound, isFound, _⟩
            by_cases isLast : index = count
            · rw [← isLast]
              exact isFound
            · rw [before index (List.mem_range.mpr (by omega))] at isFound
              cases isFound

theorem emptyBit_eq_some_iff {byte : UInt8} {bit : Nat} :
    emptyBit byte = some bit ↔
      bit < 8 ∧ byte &&& byteMask bit = 0 ∧ ∀ lower < bit, byte &&& byteMask lower ≠ 0 := by
  rw [emptyBit, List.find?_range_eq_some]
  simp only [List.mem_range, Bool.not_eq_true', beq_iff_eq, beq_eq_false_iff_ne]
  tauto

theorem emptyBit_eq_none_iff {byte : UInt8} :
    emptyBit byte = none ↔ ∀ bit < 8, byte &&& byteMask bit ≠ 0 := by
  rw [emptyBit, List.find?_range_eq_none]
  simp only [Bool.not_eq_true', beq_eq_false_iff_ne]

/-- The bit at which the loops stop is the lowest one that is clear. -/
theorem firstEmpty_eq_some {index bit : Nat} (found : bitmap.firstEmpty = some (index, bit)) :
    index < bitmap.bytes ∧ bit < 8 ∧ bitmap.isSet (index * 8 + bit) = false ∧
      ∀ lower < index * 8 + bit, bitmap.isSet lower = true := by
  obtain ⟨place, bound, here, earlier⟩ := findSome?_range_eq_some.mp found
  obtain ⟨inner, isInner, isPair⟩ := Option.map_eq_some_iff.mp here
  rw [Prod.mk.injEq] at isPair
  obtain ⟨isIndex, isBit⟩ := isPair
  subst isIndex
  subst isBit
  obtain ⟨inByte, clear, lowerSet⟩ := emptyBit_eq_some_iff.mp isInner
  have place8 : (place * 8 + inner) / 8 = place := by omega
  have rest8 : (place * 8 + inner) % 8 = inner := by omega
  refine ⟨bound, inByte, ?_, ?_⟩
  · rw [isSet_eq_false_iff, place8, rest8]
    exact clear
  · intro lower below
    rw [← Bool.not_eq_false, isSet_eq_false_iff]
    by_cases sameByte : lower / 8 = place
    · rw [sameByte]
      exact lowerSet _ (by omega)
    · have none := earlier (lower / 8) (by omega)
      rw [Option.map_eq_none_iff, emptyBit_eq_none_iff] at none
      exact none _ (Nat.mod_lt _ (by decide))

theorem firstEmpty_eq_none_iff :
    bitmap.firstEmpty = none ↔ ∀ pos < bitmap.bytes * 8, bitmap.isSet pos = true := by
  rw [firstEmpty, List.findSome?_eq_none_iff]
  simp only [List.mem_range, Option.map_eq_none_iff, emptyBit_eq_none_iff]
  constructor
  · intro all pos inside
    rw [← Bool.not_eq_false, isSet_eq_false_iff]
    exact all (pos / 8) (by omega) (pos % 8) (Nat.mod_lt _ (by decide))
  · intro all index bound bit inByte
    have set := all (index * 8 + bit) (by omega)
    rw [← Bool.not_eq_false, isSet_eq_false_iff, show (index * 8 + bit) / 8 = index by omega,
      show (index * 8 + bit) % 8 = bit by omega] at set
    exact set

/-- `get_empty`: the lowest clear bit, which is then set, or no change to a full map. -/
theorem getEmpty_cases (bitmap : Bitmap) :
    (∃ no after, bitmap.getEmpty = (some no, after) ∧ after.bytes = bitmap.bytes ∧
      no < bitmap.bytes * 8 ∧ bitmap.isSet no = false ∧ (∀ lower < no, bitmap.isSet lower = true) ∧
      ∀ pos, after.isSet pos = (bitmap.isSet pos || pos == no)) ∨
    ((∀ pos < bitmap.bytes * 8, bitmap.isSet pos = true) ∧ bitmap.getEmpty = (none, bitmap)) := by
  unfold getEmpty
  cases found : bitmap.firstEmpty with
  | none => exact Or.inr ⟨firstEmpty_eq_none_iff.mp found, rfl⟩
  | some place =>
      obtain ⟨index, bit⟩ := place
      obtain ⟨bound, inByte, clear, lowerSet⟩ := firstEmpty_eq_some found
      refine Or.inl ⟨index * 8 + bit, _, rfl, rfl, by omega, clear, lowerSet, ?_⟩
      intro pos
      have written := @isSet_update bitmap (index * 8 + bit) pos (bitmap.map index ||| byteMask bit)
      have place8 : (index * 8 + bit) / 8 = index := by omega
      rw [place8] at written
      rw [written]
      by_cases same : pos / 8 = index
      · rw [if_pos same]
        have stays := or_mask_clear_iff (bitmap.map index) ⟨bit, inByte⟩
          ⟨pos % 8, Nat.mod_lt _ (by decide)⟩
        have isNew : bit = pos % 8 ↔ pos = index * 8 + bit := by omega
        rw [ne_eq, Fin.mk.injEq, isNew] at stays
        rw [isSet, same, Bool.eq_iff_iff]
        simp only [bne_iff_ne, ne_eq, stays, Bool.or_eq_true, beq_iff_eq]
        tauto
      · have differs : pos ≠ index * 8 + bit := by omega
        rw [if_neg same, beq_eq_false_iff_ne.mpr differs, Bool.or_false]

end Bitmap

namespace MemoryNodeAllocator

variable {allocator : MemoryNodeAllocator}

theorem segmentAt_inj {left right : Nat} : allocator.segmentAt left = allocator.segmentAt right ↔ left = right := by
  unfold segmentAt segmentSize
  omega

/-- `deallocate` finds the number of the segment it is given. -/
theorem deallocate_segmentAt (no : Nat) :
    allocator.deallocate (allocator.segmentAt no) =
      { allocator with bitmap := allocator.bitmap.unset no } := by
  have off : allocator.segmentAt no - allocator.region - memoryPageSize = no * segmentSize := by
    unfold segmentAt
    omega
  unfold deallocate
  simp only [off]
  rw [Nat.mul_div_cancel _ (by decide)]

end MemoryNodeAllocator

end DiStore.Memory
