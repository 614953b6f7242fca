import DiStore.Cluster.PlanCapacity

/-!
Contract: when the type that `morph_node` infers holds every record.

Owns: the count of fingerprint bytes that are not zero, split into those of records and
those left behind them, and when `write_back_morphed` persists every record.

`morph_node` never reads `next`. A record whose fingerprint byte is zero is not counted, and
a byte left in a slot behind the records is.
-/

set_option autoImplicit false

namespace DiStore.Cluster

open DiStore.Concurrency DiStore.DataLayer DiStore.Memory DiStore.SearchLayer

/-- Bytes that are not zero in the fingerprint slots behind the records. -/
def staleMarks (buffer : LinkedNode) : Nat :=
  (List.range' buffer.next (16 - buffer.next)).countP fun index => buffer.fingerprints index != 0

variable [Digest]

/-- Records whose fingerprint byte is not zero. -/
def markedRecords (buffer : LinkedNode) : Nat :=
  buffer.records.countP fun pair => fingerprint pair.key.val != 0

/-- What `morph_node` counts. -/
theorem countP_fingerprints {buffer : LinkedNode} (bounded : buffer.next ≤ 16)
    (marked : buffer.Fingerprinted) :
    (List.range 16).countP (fun index => buffer.fingerprints index != 0) =
      markedRecords buffer + staleMarks buffer := by
  have split : List.range 16 = List.range buffer.next ++ List.range' buffer.next (16 - buffer.next) := by
    have joined := @List.range'_append_1 0 buffer.next (16 - buffer.next)
    rw [Nat.zero_add, Nat.add_sub_cancel' bounded] at joined
    rw [List.range_eq_range', List.range_eq_range', joined]
  have ofRecords : (List.range buffer.next).countP (fun index => buffer.fingerprints index != 0) =
      markedRecords buffer := by
    unfold markedRecords LinkedNode.records
    rw [List.countP_map]
    apply List.countP_congr
    intro index inRange
    rw [marked index (List.mem_range.mp inRange)]
    rfl
  rw [split, List.countP_append, ofRecords]
  rfl

/-- Enough bytes that are not zero for the number of records. -/
def MarksSuffice (buffer : LinkedNode) : Prop :=
  buffer.next ≤ 10 ∨
    buffer.next ≤ 12 ∧ 11 ≤ markedRecords buffer + staleMarks buffer ∨
      buffer.next ≤ 14 ∧ 13 ≤ markedRecords buffer + staleMarks buffer ∨
        15 ≤ markedRecords buffer + staleMarks buffer

/-- The chosen type holds every record exactly if enough bytes are not zero. -/
theorem next_le_capacity_iff {buffer : LinkedNode} (bounded : buffer.next ≤ 16)
    (marked : buffer.Fingerprinted) :
    buffer.next ≤ (morphNode buffer).capacity ↔ MarksSuffice buffer := by
  have atMost := List.countP_le_length (p := fun index => buffer.fingerprints index != 0)
    (l := List.range 16)
  rw [List.length_range] at atMost
  have counted := countP_fingerprints bounded marked
  unfold morphNode MarksSuffice
  simp only
  rw [counted] at atMost ⊢
  by_cases ten : markedRecords buffer + staleMarks buffer ≤ 10
  · rw [if_pos ten]
    change buffer.next ≤ 10 ↔ _
    omega
  · rw [if_neg ten]
    by_cases twelve : markedRecords buffer + staleMarks buffer ≤ 12
    · rw [if_pos twelve]
      change buffer.next ≤ 12 ↔ _
      omega
    · rw [if_neg twelve]
      by_cases fourteen : markedRecords buffer + staleMarks buffer ≤ 14
      · rw [if_pos fourteen]
        change buffer.next ≤ 14 ↔ _
        omega
      · rw [if_neg fourteen, if_pos atMost]
        change buffer.next ≤ 16 ↔ _
        omega

namespace ComputeNode

/-- `write_back_morphed`, called with the morphed node in the second slot, leaves every
record in the chunk it has allocated. -/
def Persists (buffer : LinkedNode) : Prop :=
  ∀ (source : SegmentSource) (node : ComputeNode) (thread : ThreadId) (target : NodeId),
    RemoteHeap.Sound source node.heap → ¬ RemoteHeap.Reserve source node.heap (node.predData target) →
      node.buffers thread 1 = sealedAs (morphNode buffer) buffer →
        ∃ remote after, node.writeBackMorphed source thread target .done = (remote, after) ∧
          remote ≠ nullptr ∧ (after.remote remote).entries = buffer.entries

/-- What morphing is to keep: the type holds the records, and they reach remote memory. -/
structure MorphKeeps (buffer : LinkedNode) : Prop where
  fits : buffer.next ≤ (morphNode buffer).capacity
  persists : Persists buffer

/-- A type that holds the records is a size that covers them. -/
theorem persists_of_fits {buffer : LinkedNode} (fits : buffer.next ≤ (morphNode buffer).capacity) :
    Persists buffer := by
  intro source node thread target sound predTaken inSlot
  have isData : (node.buffers thread 1).type.IsData := by
    rw [inSlot]
    exact morphNode_isData buffer
  obtain ⟨remote, heap, written, _, notNull, _, _, _, _⟩ :=
    node.writeBackMorphed_done thread target sound isData predTaken
  refine ⟨remote, _, written, notNull, ?_⟩
  have image : (node.morphedTo thread target remote heap).remote remote =
      LinkedNode.overlay (sizeofNode (morphNode buffer)) (sealedAs (morphNode buffer) buffer)
        (node.remote remote) := by
    unfold morphedTo
    simp only
    rw [Function.update_self, inSlot]
    rfl
  rw [image]
  apply LinkedNode.entries_overlay
  have covered := pairsOffset_le_sizeofNode (morphNode_isData buffer)
  change pairsOffset + 32 * buffer.next ≤ _
  omega

/-- Morphing keeps a node of up to sixteen records exactly if enough fingerprint bytes are
not zero. -/
theorem morph_keeps_iff (buffer : LinkedNode) (bounded : buffer.next ≤ 16) (marked : buffer.Fingerprinted) :
    MorphKeeps buffer ↔ MarksSuffice buffer := by
  rw [← next_le_capacity_iff bounded marked]
  constructor
  · intro keeps
    exact keeps.fits
  · intro fits
    exact ⟨fits, persists_of_fits fits⟩

end ComputeNode

end DiStore.Cluster

/-! ### Eleven records -/

namespace DiStore.Cluster.ComputeNode

open DiStore.DataLayer

attribute [local instance] Digests.source

/-- Eleven records with keys of equal bytes, from `first` on, stored into an empty node. -/
def elevenFrom (first : Nat) : LinkedNode :=
  (LinkedNode.fresh .type16 .zeroed).storeAll 16 (byteOffers first 11)

/-- None of the keys hashes to a zero byte. -/
theorem eleven_marked_kept : MorphKeeps (elevenFrom 97) :=
  (morph_keeps_iff (elevenFrom 97) (by decide +kernel) (by decide +kernel)).mpr
    (Or.inr (Or.inl (by decide +kernel)))

/-- The sixteen bytes `176` hash to a zero byte: the node is taken for one of ten records. -/
theorem eleven_truncated :
    ¬ ∀ buffer : LinkedNode, buffer.next ≤ 16 → buffer.Fingerprinted → buffer.DistinctKeys →
      buffer.next ≤ (morphNode buffer).capacity := by
  intro fits
  have fit := fits (elevenFrom 170) (by decide +kernel) (by decide +kernel) (by decide +kernel)
  exact absurd fit (by decide +kernel)

end DiStore.Cluster.ComputeNode
