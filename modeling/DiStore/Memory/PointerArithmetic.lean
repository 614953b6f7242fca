import DiStore.Memory.TaggedPointer

/-!
Contract: arithmetic on remote pointers and the pointers that are remote or local.

Owns: the second `make_remote_pointer`, `get_as`, `offset_by`, the difference of two pointers,
`page`, `is_remote_pointer`, the union `PolymorphicPointer`, and the number a remote pointer is.

Does **not** own: `make_remote_pointer` of a byte pointer, `get_node` and `is_nullptr`, which
`TaggedPointer` defines.

## The tag never takes a carry

A user space address ends below bit 47, and so does the address an offset leads to. The two
bytes above bit 48 are the tag and a byte of zeros, so every sum below stays in the low 48 bits
and the pointer is the number `(128 + node) * 2 ^ 56 + address`. Each operation is read off that
number.
-/

set_option autoImplicit false

namespace DiStore.Memory

namespace TaggedPointer

/-- `Constants::REMOTE_POINTER_BITS_MASK`. -/
def remotePointerBitsMask : BitVec 64 := 0xc000000000000000

/-- `Constants::PAGE_MASK` of the build without `__DEBUG__`. -/
def pageMask : BitVec 64 := 0xfffffffffffff000

/-- `is_remote_pointer`. -/
def isRemotePointer (pointer : BitVec 64) : Bool :=
  (pointer &&& remotePointerBitsMask) >>> 62 == remotePointerBits

/-- `make_remote_pointer` of a node and an address given as a number. -/
def makeRemotePointerOfNumber (node address : BitVec 64) : TaggedPointer :=
  let value := address &&& remotePointerMask
  let info := remotePointerBits <<< 6 ||| (node &&& 0x3f)
  info <<< 56 ||| value

/-- `cursor[index]` for a byte pointer to the word. -/
def byteAt (word : BitVec 64) (index : Nat) : BitVec 8 := (word >>> (8 * index)).setWidth 8

/-- `cursor[index] = byte`. -/
def setByteAt (word : BitVec 64) (index : Nat) (byte : BitVec 8) : BitVec 64 :=
  (word &&& ~~~((0xff : BitVec 64) <<< (8 * index))) ||| byte.setWidth 64 <<< (8 * index)

/-- `get_as`: the byte below the tag takes the place of the tag. -/
def getAs (pointer : TaggedPointer) : BitVec 64 := setByteAt pointer 7 (byteAt pointer 6)

/-- `offset_by`. -/
def offsetBy (pointer : TaggedPointer) (off : BitVec 64) : TaggedPointer := pointer + off

/-- `operator-`. -/
def minus (pointer other : TaggedPointer) : BitVec 64 := pointer - other

/-- `page`. -/
def page (pointer : TaggedPointer) : TaggedPointer := pointer &&& pageMask

end TaggedPointer

/-- `PolymorphicPointer`: a union, so both members are the same word. -/
structure PolymorphicPointer where
  word : BitVec 64
  deriving DecidableEq, Repr

namespace PolymorphicPointer

/-- `make_polymorphic_pointer` of a remote pointer. -/
def ofRemote (pointer : TaggedPointer) : PolymorphicPointer := ⟨pointer⟩

/-- `make_polymorphic_pointer` of a plain pointer. -/
def ofLocal (address : BitVec 64) : PolymorphicPointer := ⟨address⟩

/-- `is_local`. -/
def isLocal (pointer : PolymorphicPointer) : Bool := !TaggedPointer.isRemotePointer pointer.word

/-- `get_as`. -/
def getAs (pointer : PolymorphicPointer) : BitVec 64 :=
  if pointer.isLocal then pointer.word else TaggedPointer.getAs pointer.word

end PolymorphicPointer

namespace TaggedPointer

/-! ## The operations on numbers -/

/-- The two masks of the node agree on the byte that is not shifted out. -/
theorem getLsbD_nodeMasks (bit : Fin 8) :
    (0x3f : BitVec 64).getLsbD bit = (~~~0xc0 : BitVec 64).getLsbD bit := by
  revert bit
  decide

/-- **The overloads agree**, whatever node and address they get. -/
theorem makeRemotePointerOfNumber_eq (node address : BitVec 64) :
    makeRemotePointerOfNumber node address = makeRemotePointer node address := by
  apply BitVec.eq_of_getLsbD_eq
  intro bit inWord
  unfold makeRemotePointerOfNumber makeRemotePointer
  rw [BitVec.getLsbD_or, BitVec.getLsbD_or, BitVec.getLsbD_shiftLeft, BitVec.getLsbD_shiftLeft,
    BitVec.getLsbD_or, BitVec.getLsbD_or]
  by_cases tag : bit < 56
  · simp [tag]
  · have inByte : bit - 56 < 8 := by omega
    have masks := getLsbD_nodeMasks ⟨bit - 56, inByte⟩
    simp only at masks
    have kept : (node &&& 0x3f).getLsbD (bit - 56) = (node &&& ~~~0xc0).getLsbD (bit - 56) := by
      rw [BitVec.getLsbD_and, BitVec.getLsbD_and, masks]
    rw [kept]

/-- The address mask takes a remainder. -/
theorem toNat_and_remotePointerMask (address : BitVec 64) :
    (address &&& remotePointerMask).toNat = address.toNat % 2 ^ 48 := by
  have mask : remotePointerMask.toNat = 2 ^ 48 - 1 := by decide
  rw [BitVec.toNat_and, mask, Nat.and_two_pow_sub_one_eq_mod]

/-- The tag of a node, as a number. -/
theorem toNat_info {node : Nat} (inCluster : node < 64) :
    (remotePointerBits <<< 6 ||| (BitVec.ofNat 64 node &&& 0x3f)).toNat = 128 + node := by
  have masked : (BitVec.ofNat 64 node &&& 0x3f).toNat = node := by
    have mask : (0x3f : BitVec 64).toNat = 2 ^ 6 - 1 := by decide
    have small : node < 2 ^ 64 := Nat.lt_trans inCluster (by decide)
    rw [BitVec.toNat_and, mask, Nat.and_two_pow_sub_one_eq_mod, BitVec.toNat_ofNat, Nat.mod_eq_of_lt small,
      Nat.mod_eq_of_lt inCluster]
  have marked : (remotePointerBits <<< 6).toNat = 2 <<< 6 := by decide
  rw [BitVec.toNat_or, masked, marked, ← Nat.shiftLeft_add_eq_or_of_lt inCluster]
  rfl

/-- **A remote pointer as a number**: the tag stands above every bit of the address. -/
theorem toNat_makeRemotePointer {node address : Nat} (inCluster : node < 64) (inProcess : address < 2 ^ 48) :
    (makeRemotePointer (BitVec.ofNat 64 node) (BitVec.ofNat 64 address)).toNat =
      (128 + node) * 2 ^ 56 + address := by
  have value : (BitVec.ofNat 64 address &&& remotePointerMask).toNat = address := by
    have small : address < 2 ^ 64 := Nat.lt_trans inProcess (by decide)
    rw [toNat_and_remotePointerMask, BitVec.toNat_ofNat, Nat.mod_eq_of_lt small, Nat.mod_eq_of_lt inProcess]
  have belowTag : address < 2 ^ 56 := Nat.lt_trans inProcess (by decide)
  have noOverflow : (128 + node) * 2 ^ 56 < 2 ^ 64 := by omega
  rw [← makeRemotePointerOfNumber_eq]
  unfold makeRemotePointerOfNumber
  rw [BitVec.toNat_or, BitVec.toNat_shiftLeft, toNat_info inCluster, value, Nat.shiftLeft_eq,
    Nat.mod_eq_of_lt noOverflow, ← Nat.shiftLeft_eq, ← Nat.shiftLeft_add_eq_or_of_lt belowTag]

theorem toNat_getNode (pointer : TaggedPointer) : pointer.getNode = pointer.toNat / 2 ^ 56 % 64 := by
  have mask : (0x3f : BitVec 64).toNat = 2 ^ 6 - 1 := by decide
  unfold getNode
  rw [BitVec.toNat_and, mask, Nat.and_two_pow_sub_one_eq_mod, BitVec.toNat_ushiftRight,
    Nat.shiftRight_eq_div_pow]

/-- The word with its top byte cleared. -/
theorem toNat_clearTop (word : BitVec 64) :
    (word &&& ~~~((0xff : BitVec 64) <<< (8 * 7))).toNat = word.toNat % 2 ^ 56 := by
  have mask : (~~~((0xff : BitVec 64) <<< (8 * 7))).toNat = 2 ^ 56 - 1 := by decide
  rw [BitVec.toNat_and, mask, Nat.and_two_pow_sub_one_eq_mod]

/-- The decoder on numbers: the address bits stay and the byte above them is doubled. -/
theorem toNat_getAs (pointer : TaggedPointer) :
    pointer.getAs.toNat = pointer.toNat / 2 ^ 48 % 256 * 2 ^ 56 + pointer.toNat % 2 ^ 56 := by
  have byte : (byteAt pointer 6).toNat = pointer.toNat / 2 ^ 48 % 256 := by
    unfold byteAt
    rw [BitVec.toNat_setWidth, BitVec.toNat_ushiftRight, Nat.shiftRight_eq_div_pow]
  have byteBound : (byteAt pointer 6).toNat < 256 := (byteAt pointer 6).isLt
  have belowTop : pointer.toNat % 2 ^ 56 < 2 ^ 56 := Nat.mod_lt _ (by decide)
  have small : (byteAt pointer 6).toNat < 2 ^ 64 := Nat.lt_trans byteBound (by decide)
  have noOverflow : (byteAt pointer 6).toNat * 2 ^ 56 < 2 ^ 64 := by omega
  unfold getAs setByteAt
  rw [BitVec.toNat_or, toNat_clearTop, BitVec.toNat_shiftLeft, BitVec.toNat_setWidth, Nat.mod_eq_of_lt small,
    Nat.shiftLeft_eq, Nat.mod_eq_of_lt noOverflow, Nat.or_comm, ← Nat.shiftLeft_eq,
    ← Nat.shiftLeft_add_eq_or_of_lt belowTop, Nat.shiftLeft_eq, byte]

/-- The page mask clears the twelve low bits. -/
theorem toNat_page (pointer : TaggedPointer) : pointer.page.toNat = pointer.toNat / 4096 * 4096 := by
  have mask : pageMask = BitVec.allOnes 64 <<< 12 := by decide
  have shifted : pointer &&& pageMask = pointer >>> 12 <<< 12 := by
    rw [mask]
    apply BitVec.eq_of_getLsbD_eq
    intro bit inWord
    rw [BitVec.getLsbD_and, BitVec.getLsbD_shiftLeft, BitVec.getLsbD_shiftLeft, BitVec.getLsbD_ushiftRight,
      BitVec.getLsbD_allOnes]
    by_cases low : bit < 12
    · simp [low]
    · have sameBit : 12 + (bit - 12) = bit := by omega
      have inRange : bit - 12 < 64 := by omega
      simp [low, sameBit, inRange, inWord]
  have fits : pointer.toNat / 4096 * 4096 < 2 ^ 64 := Nat.lt_of_le_of_lt (Nat.div_mul_le_self _ _) pointer.isLt
  unfold page
  rw [shifted, BitVec.toNat_shiftLeft, BitVec.toNat_ushiftRight, Nat.shiftRight_eq_div_pow, Nat.shiftLeft_eq]
  exact Nat.mod_eq_of_lt fits

/-- Only the two top bits tell a remote pointer. -/
theorem isRemotePointer_iff (pointer : BitVec 64) :
    isRemotePointer pointer = true ↔ pointer.toNat / 2 ^ 62 = 2 := by
  have top : (pointer &&& remotePointerBitsMask) >>> 62 = pointer >>> 62 := by
    apply BitVec.eq_of_getLsbD_eq
    intro bit inWord
    have mask : ∀ low : Fin 2, remotePointerBitsMask.getLsbD (62 + low) = true := by decide
    rw [BitVec.getLsbD_ushiftRight, BitVec.getLsbD_ushiftRight, BitVec.getLsbD_and]
    by_cases low : bit < 2
    · rw [mask ⟨bit, low⟩, Bool.and_true]
    · have outside : 64 ≤ 62 + bit := by omega
      simp [BitVec.getLsbD_of_ge _ _ outside]
  have marked : remotePointerBits.toNat = 2 := by decide
  unfold isRemotePointer
  rw [top, beq_iff_eq, ← BitVec.toNat_inj, BitVec.toNat_ushiftRight, Nat.shiftRight_eq_div_pow, marked]

/-! ## The pointers of one node -/

section Decoding

variable {node address : Nat} (inCluster : node < 64)

include inCluster

/-- Pointers step through an address space as the addresses do. -/
theorem offsetBy_makeRemotePointer {offset : Nat} (inProcess : address + offset < 2 ^ 48) :
    (makeRemotePointer (BitVec.ofNat 64 node) (BitVec.ofNat 64 address)).offsetBy (BitVec.ofNat 64 offset) =
      makeRemotePointer (BitVec.ofNat 64 node) (BitVec.ofNat 64 (address + offset)) := by
  have start : address < 2 ^ 48 := by omega
  have small : offset < 2 ^ 64 := by omega
  have noCarry : (128 + node) * 2 ^ 56 + address + offset < 2 ^ 64 := by omega
  apply BitVec.eq_of_toNat_eq
  unfold offsetBy
  rw [BitVec.toNat_add, toNat_makeRemotePointer inCluster start, toNat_makeRemotePointer inCluster inProcess,
    BitVec.toNat_ofNat, Nat.mod_eq_of_lt small, Nat.mod_eq_of_lt noCarry, Nat.add_assoc]

/-- The decoder gives a user space address back. -/
theorem getAs_makeRemotePointer (userSpace : address < 2 ^ 47) :
    (makeRemotePointer (BitVec.ofNat 64 node) (BitVec.ofNat 64 address)).getAs = BitVec.ofNat 64 address := by
  have inProcess : address < 2 ^ 48 := by omega
  have small : address < 2 ^ 64 := by omega
  apply BitVec.eq_of_toNat_eq
  rw [toNat_getAs, toNat_makeRemotePointer inCluster inProcess, BitVec.toNat_ofNat, Nat.mod_eq_of_lt small]
  omega

/-- The page of a pointer is a pointer to the page of its address. -/
theorem page_makeRemotePointer (inProcess : address < 2 ^ 48) :
    (makeRemotePointer (BitVec.ofNat 64 node) (BitVec.ofNat 64 address)).page =
      makeRemotePointer (BitVec.ofNat 64 node) (BitVec.ofNat 64 (address / 4096 * 4096)) := by
  have cleared : address / 4096 * 4096 < 2 ^ 48 := Nat.lt_of_le_of_lt (Nat.div_mul_le_self _ _) inProcess
  apply BitVec.eq_of_toNat_eq
  rw [toNat_page, toNat_makeRemotePointer inCluster inProcess, toNat_makeRemotePointer inCluster cleared]
  omega

theorem isRemotePointer_makeRemotePointer (inProcess : address < 2 ^ 48) :
    isRemotePointer (makeRemotePointer (BitVec.ofNat 64 node) (BitVec.ofNat 64 address)) = true := by
  rw [isRemotePointer_iff, toNat_makeRemotePointer inCluster inProcess]
  omega

end Decoding

/-- No address of a process has the mark of a remote pointer. -/
theorem isRemotePointer_address {address : Nat} (inProcess : address < 2 ^ 48) :
    isRemotePointer (BitVec.ofNat 64 address) = false := by
  have small : address < 2 ^ 64 := Nat.lt_trans inProcess (by decide)
  rw [Bool.eq_false_iff, ne_eq, isRemotePointer_iff, BitVec.toNat_ofNat, Nat.mod_eq_of_lt small]
  omega

end TaggedPointer

namespace PolymorphicPointer

/-- The union reads back a remote pointer through the decoder. -/
theorem getAs_ofRemote {node address : Nat} (inCluster : node < 64) (userSpace : address < 2 ^ 47) :
    (ofRemote (TaggedPointer.makeRemotePointer (BitVec.ofNat 64 node) (BitVec.ofNat 64 address))).getAs =
      BitVec.ofNat 64 address := by
  have inProcess : address < 2 ^ 48 := by omega
  have isRemote := TaggedPointer.isRemotePointer_makeRemotePointer inCluster inProcess
  unfold getAs isLocal ofRemote
  rw [isRemote, Bool.not_true, if_neg Bool.false_ne_true]
  exact TaggedPointer.getAs_makeRemotePointer inCluster userSpace

/-- The union reads back a plain pointer as it is. -/
theorem getAs_ofLocal {address : Nat} (inProcess : address < 2 ^ 48) :
    (ofLocal (BitVec.ofNat 64 address)).getAs = BitVec.ofNat 64 address := by
  have notRemote := TaggedPointer.isRemotePointer_address inProcess
  unfold getAs isLocal ofLocal
  rw [notRemote, Bool.not_false, if_pos rfl]

end PolymorphicPointer

namespace TaggedPointer

/-- **Remote pointers under arithmetic.** Within the user space of a process the encoders
agree, offsets and pages move the address and keep the node, and the decoders give the
address back, through the union too. -/
theorem encoding_faithful {node address offset : Nat} {pointer : TaggedPointer} (inCluster : node < 64)
    (userSpace : address < 2 ^ 47) (inBounds : address + offset < 2 ^ 47)
    (isPointer : pointer = makeRemotePointer (BitVec.ofNat 64 node) (BitVec.ofNat 64 address)) :
    makeRemotePointerOfNumber (BitVec.ofNat 64 node) (BitVec.ofNat 64 address) = pointer ∧
      ((pointer.offsetBy (BitVec.ofNat 64 offset)).getNode = node ∧
        (pointer.offsetBy (BitVec.ofNat 64 offset)).getAs = BitVec.ofNat 64 (address + offset) ∧
        (pointer.offsetBy (BitVec.ofNat 64 offset)).minus pointer = BitVec.ofNat 64 offset) ∧
      (pointer.page.getNode = node ∧ pointer.page.getAs = BitVec.ofNat 64 (address / 4096 * 4096)) ∧
      (pointer.isNullptr = true ↔ address = 0) ∧
      (isRemotePointer pointer = true ∧ isRemotePointer (BitVec.ofNat 64 address) = false) ∧
      (PolymorphicPointer.ofRemote pointer).getAs = BitVec.ofNat 64 address ∧
      (PolymorphicPointer.ofLocal (BitVec.ofNat 64 address)).getAs = BitVec.ofNat 64 address := by
  have inProcess : address < 2 ^ 48 := by omega
  have movedInProcess : address + offset < 2 ^ 48 := by omega
  have pageInSpace : address / 4096 * 4096 < 2 ^ 47 := Nat.lt_of_le_of_lt (Nat.div_mul_le_self _ _) userSpace
  rw [isPointer]
  refine ⟨makeRemotePointerOfNumber_eq _ _, ⟨?_, ?_, ?_⟩, ⟨?_, ?_⟩, ?_,
    ⟨isRemotePointer_makeRemotePointer inCluster inProcess, isRemotePointer_address inProcess⟩,
    PolymorphicPointer.getAs_ofRemote inCluster userSpace, PolymorphicPointer.getAs_ofLocal inProcess⟩
  · rw [offsetBy_makeRemotePointer inCluster movedInProcess]
    exact getNode_makeRemotePointer _ inCluster
  · rw [offsetBy_makeRemotePointer inCluster movedInProcess]
    exact getAs_makeRemotePointer inCluster inBounds
  · unfold offsetBy minus
    rw [BitVec.add_comm, BitVec.add_sub_cancel]
  · rw [page_makeRemotePointer inCluster inProcess]
    exact getNode_makeRemotePointer _ inCluster
  · rw [page_makeRemotePointer inCluster inProcess]
    exact getAs_makeRemotePointer inCluster pageInSpace
  · rw [isNullptr_of_address (BitVec.ofNat 64 node) inProcess, beq_iff_eq]

/-- An address in the middle of a page of node 5. -/
theorem encoding_faithful_node_five :
    ((makeRemotePointer 5 0x7f0012345678).offsetBy 4096).getAs = 0x7f0012346678 ∧
      (makeRemotePointer 5 0x7f0012345678).page.getAs = 0x7f0012345000 := by
  have holds := encoding_faithful (by decide : 5 < 64) (by decide : 0x7f0012345678 < 2 ^ 47)
    (by decide : 0x7f0012345678 + 4096 < 2 ^ 47) rfl
  exact ⟨holds.2.1.2.1, holds.2.2.1.2⟩

end TaggedPointer

end DiStore.Memory
