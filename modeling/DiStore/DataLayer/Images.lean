import DiStore.DataLayer.NodeFacts

/-!
Contract: what a node image holds after a transfer of its first bytes.

Owns: the fields of `LinkedNode.overlay`, the records and checksums that a transfer
of a whole node type carries over, and the node types that are data nodes.
-/

set_option autoImplicit false

namespace DiStore.DataLayer

/-- The tags of the four data node types. -/
def LinkedNodeType.IsData : LinkedNodeType → Prop
  | .type10 | .type12 | .type14 | .type16 => True
  | _ => False

instance (type : LinkedNodeType) : Decidable type.IsData := by
  unfold LinkedNodeType.IsData
  cases type <;> infer_instance

theorem LinkedNodeType.isData10 : LinkedNodeType.type10.IsData := trivial

theorem LinkedNodeType.isData12 : LinkedNodeType.type12.IsData := trivial

theorem LinkedNodeType.isData14 : LinkedNodeType.type14.IsData := trivial

theorem LinkedNodeType.isData16 : LinkedNodeType.type16.IsData := trivial

theorem pairsOffset_le_sizeofNode {type : LinkedNodeType} (isData : type.IsData) :
    pairsOffset + 32 * type.capacity ≤ sizeofNode type := by
  cases type <;> first | exact absurd isData id | decide

theorem sizeofNode_ne_zero {type : LinkedNodeType} (isData : type.IsData) : sizeofNode type ≠ 0 := by
  cases type <;> first | exact absurd isData id | decide

theorem sizeofNode_le_add_four {type : LinkedNodeType} (isData : type.IsData) :
    sizeofNode type ≤ pairsOffset + 32 * type.capacity + 4 := by
  cases type <;> first | exact absurd isData id | decide

theorem ten_le_capacity {type : LinkedNodeType} (isData : type.IsData) : 10 ≤ type.capacity := by
  cases type <;> first | exact absurd isData id | decide

theorem capacity_le_sixteen (type : LinkedNodeType) : type.capacity ≤ 16 := by
  cases type <;> decide

theorem KV.overlay_of_le {count : Nat} (whole : 32 ≤ count) (source target : KV) :
    KV.overlay count source target = source := by
  simp [KV.overlay, whole]

/-- A transfer of at most four bytes of a pair leaves the rest of its key. -/
theorem KV.drop_overlay_key {count : Nat} (short : count ≤ 4) (source target : KV) :
    (KV.overlay count source target).key.val.drop 4 = target.key.val.drop 4 := by
  unfold KV.overlay
  rw [if_neg (by omega)]
  split
  next => rfl
  next =>
    change (Bytes16.overlay count source.key target.key).val.drop 4 = _
    have length : (source.key.val.take count).length ≤ 4 := by
      rw [List.length_take]
      omega
    have whole : min count keyLen = count := min_eq_left (show count ≤ 16 by omega)
    rw [Bytes16.overlay, List.drop_append, List.drop_eq_nil_of_le length, List.nil_append, List.drop_drop,
      List.length_take, source.key.property, whole, Nat.add_sub_cancel' short]

namespace LinkedNode

variable {size count : Nat} {source target : LinkedNode}

section Fields

variable (nonempty : size ≠ 0)

include nonempty

theorem overlay_next : (overlay size source target).next = source.next := by simp [overlay, nonempty]

theorem overlay_type : (overlay size source target).type = source.type := by simp [overlay, nonempty]

theorem overlay_crc : (overlay size source target).crc = source.crc := by simp [overlay, nonempty]

theorem overlay_rlink : (overlay size source target).rlink = source.rlink := by simp [overlay, nonempty]

theorem overlay_fingerprints : (overlay size source target).fingerprints = source.fingerprints := by
  simp [overlay, nonempty]

theorem overlay_pairs (index : Nat) : (overlay size source target).pairs index =
    KV.overlay (size - (pairsOffset + 32 * index)) (source.pairs index) (target.pairs index) := by
  simp [overlay, nonempty]

end Fields

@[simp] theorem overlay_empty : overlay 0 source target = target := by simp [overlay]

/-- Pairs that lie inside the transfer are the source's. -/
theorem overlay_pairs_of_le {index : Nat} (inside : pairsOffset + 32 * (index + 1) ≤ size) :
    (overlay size source target).pairs index = source.pairs index := by
  have nonempty : size ≠ 0 := by omega
  rw [overlay_pairs nonempty, KV.overlay_of_le (by omega)]

theorem KV.overlay_overlay (count : Nat) (source middle target : KV) :
    KV.overlay count (KV.overlay count source middle) target = KV.overlay count source target := by
  unfold KV.overlay
  split
  next => rfl
  next =>
    split
    next => rfl
    next => simp

/-- A second transfer of the same bytes carries them on. -/
theorem overlay_overlay (size : Nat) (source middle target : LinkedNode) :
    overlay size (overlay size source middle) target = overlay size source target := by
  by_cases empty : size = 0
  · rw [empty, overlay_empty, overlay_empty]
  · simp only [overlay, if_neg empty, KV.overlay_overlay]

theorem overlay_self (size : Nat) (node : LinkedNode) : overlay size node node = node := by
  by_cases empty : size = 0
  · rw [empty, overlay_empty]
  · have pairs : (overlay size node node).pairs = node.pairs := by
      funext index
      rw [overlay_pairs empty, KV.overlay]
      split
      next => rfl
      next =>
        split
        next => rfl
        next => simp
    have same : overlay size node node = { node with pairs := (overlay size node node).pairs } := by
      simp [overlay, empty]
    rw [same, pairs]

/-- An image read, linked elsewhere and written back with the same size keeps everything
but its link. -/
theorem overlay_relinked (nonempty : size ≠ 0) (image buffer : LinkedNode) (rlink : RemotePointer) :
    overlay size { overlay size image buffer with rlink := rlink } image = { image with rlink := rlink } := by
  have whole : overlay size (overlay size image buffer) image = image := by
    rw [overlay_overlay, overlay_self]
  have linked : overlay size { overlay size image buffer with rlink := rlink } image =
      { overlay size (overlay size image buffer) image with rlink := rlink } := by
    simp [overlay, nonempty]
  rw [linked, whole]

theorem pairBytes_congr {left right : LinkedNode}
    (pairs : ∀ index < count, left.pairs index = right.pairs index) :
    left.pairBytes count = right.pairBytes count := by
  unfold pairBytes
  exact List.flatMap_congr fun index isMember => by rw [pairs index (List.mem_range.mp isMember)]

variable [Digest]

/-- A transfer that covers every record carries over what each key maps to. -/
theorem find_overlay (covered : pairsOffset + 32 * source.next ≤ size) (key : Bytes16) :
    (overlay size source target).find key.val = source.find key.val := by
  have nonempty : size ≠ 0 := by
    unfold pairsOffset at covered
    omega
  have next : (overlay size source target).next = source.next := overlay_next nonempty
  refine find_congr next (fun index _ => by rw [overlay_fingerprints nonempty]) (fun index bound => ?_) key
  rw [next] at bound
  exact overlay_pairs_of_le (by omega)

end LinkedNode

/-- The checksum of a data node reads the pairs of its type only. -/
theorem crcValidate_congr [Digest] {left right : LinkedNode} {type : LinkedNodeType}
    (pairs : ∀ index < type.capacity, left.pairs index = right.pairs index) :
    crcValidate left type = crcValidate right type := by
  cases type <;> simp only [crcValidate]
  all_goals exact congrArg Digest.crc16 (LinkedNode.pairBytes_congr pairs)

end DiStore.DataLayer
