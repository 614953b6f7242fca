import Mathlib.Algebra.Group.Nat.Defs
import Mathlib.Order.Lattice

/-!
Contract: remote pointers with the number of their memory node.

Owns: `make_remote_pointer`, `get_node` and `is_nullptr` on the 64 bits of a pointer, and
what they read of a pointer made from a node and an address.

Does not own: the modules in which one memory node serves the store and a pointer is its
address.
-/

set_option autoImplicit false

namespace DiStore.Memory

/-- The bits of a `RemotePointer`. -/
abbrev TaggedPointer := BitVec 64

namespace TaggedPointer

/-- `Constants::REMOTE_POINTER_MASK`. -/
def remotePointerMask : BitVec 64 := ~~~0xffff000000000000

/-- `Constants::REMOTE_POINTER_BITS`. -/
def remotePointerBits : BitVec 64 := 2

/-- `make_remote_pointer` of a node and an address of its process. -/
def makeRemotePointer (node address : BitVec 64) : TaggedPointer :=
  let value := address &&& remotePointerMask
  let info := remotePointerBits <<< 6 ||| (node &&& ~~~0xc0)
  info <<< 56 ||| value

/-- `get_node`. -/
def getNode (pointer : TaggedPointer) : Nat := ((pointer >>> 56) &&& 0x3f).toNat

/-- `is_nullptr`: the tag does not count. -/
def isNullptr (pointer : TaggedPointer) : Bool := pointer &&& 0x0000ffffffffffff == 0

/-- Both masks keep the address bits. -/
theorem getLsbD_masks (bit : Fin 64) :
    remotePointerMask.getLsbD bit = decide (bit.val < 48) ∧
      (0x0000ffffffffffff : BitVec 64).getLsbD bit = decide (bit.val < 48) := by
  revert bit
  decide

theorem isNullptr_makeRemotePointer (node address : BitVec 64) :
    (makeRemotePointer node address).isNullptr = (address &&& remotePointerMask == 0) := by
  have kept : makeRemotePointer node address &&& 0x0000ffffffffffff = address &&& remotePointerMask := by
    apply BitVec.eq_of_getLsbD_eq
    intro bit bound
    have masks := getLsbD_masks ⟨bit, bound⟩
    simp only at masks
    unfold makeRemotePointer
    rw [BitVec.getLsbD_and, BitVec.getLsbD_or, BitVec.getLsbD_shiftLeft, BitVec.getLsbD_and, masks.1, masks.2]
    by_cases low : bit < 48
    · have notTag : bit < 56 := Nat.lt_trans low (by decide)
      simp [low, notTag]
    · simp [low]
  unfold isNullptr
  rw [kept]

/-- The bits of the node lie above the address and below the mark of a remote pointer. -/
theorem getLsbD_tag (bit : Fin 64) :
    (0x3f : BitVec 64).getLsbD bit = decide (bit.val < 6) ∧
      (bit.val < 6 → (remotePointerBits <<< 6).getLsbD bit = false ∧ (~~~0xc0 : BitVec 64).getLsbD bit = true ∧
        remotePointerMask.getLsbD (56 + bit) = false) := by
  revert bit
  decide

/-- A pointer into a process is null only if its address is. -/
theorem isNullptr_of_address (node : BitVec 64) {address : Nat} (inProcess : address < 2 ^ 48) :
    (makeRemotePointer node (BitVec.ofNat 64 address)).isNullptr = (address == 0) := by
  have kept : BitVec.ofNat 64 address &&& remotePointerMask = BitVec.ofNat 64 address := by
    apply BitVec.eq_of_getLsbD_eq
    intro bit bound
    have masks := (getLsbD_masks ⟨bit, bound⟩).1
    simp only at masks
    rw [BitVec.getLsbD_and, masks, BitVec.getLsbD_ofNat]
    by_cases low : bit < 48
    · simp [low]
    · have small : address < 2 ^ bit := Nat.lt_of_lt_of_le inProcess (Nat.pow_le_pow_right (by decide) (Nat.not_lt.mp low))
      simp [low, Nat.testBit_lt_two_pow small]
  rw [isNullptr_makeRemotePointer, kept, Bool.eq_iff_iff, beq_iff_eq, beq_iff_eq, ← BitVec.toNat_inj,
    BitVec.toNat_ofNat, Nat.mod_eq_of_lt (Nat.lt_trans inProcess (by decide))]
  exact Iff.rfl

/-- The tag is the low six bits of the node. -/
theorem getNode_make (node address : BitVec 64) : (makeRemotePointer node address).getNode = node.toNat % 64 := by
  have tag : (makeRemotePointer node address >>> 56) &&& 0x3f = node &&& 0x3f := by
    apply BitVec.eq_of_getLsbD_eq
    intro bit bound
    obtain ⟨isMask, low⟩ := getLsbD_tag ⟨bit, bound⟩
    simp only at isMask low
    rw [BitVec.getLsbD_and, BitVec.getLsbD_and, BitVec.getLsbD_ushiftRight, isMask]
    by_cases inTag : bit < 6
    · obtain ⟨noMark, kept, noAddress⟩ := low inTag
      have inWord : 56 + bit < 64 := by omega
      unfold makeRemotePointer
      rw [BitVec.getLsbD_or, BitVec.getLsbD_shiftLeft, BitVec.getLsbD_or, BitVec.getLsbD_and,
        BitVec.getLsbD_and, Nat.add_sub_cancel_left, noMark, kept, noAddress]
      simp [inTag, inWord]
    · simp [inTag]
  have mask : (0x3f : BitVec 64).toNat = 2 ^ 6 - 1 := by decide
  unfold getNode
  rw [tag, BitVec.toNat_and, mask, Nat.and_two_pow_sub_one_eq_mod]

/-- The tag is the node, for the 64 nodes there can be. -/
theorem getNode_makeRemotePointer {node : Nat} (address : BitVec 64) (inRange : node < 64) :
    (makeRemotePointer (BitVec.ofNat 64 node) address).getNode = node := by
  rw [getNode_make, BitVec.toNat_ofNat, Nat.mod_eq_of_lt (Nat.lt_trans inRange (by decide)), Nat.mod_eq_of_lt inRange]

end TaggedPointer

end DiStore.Memory
