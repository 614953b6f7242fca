import DiStore.Cluster.LocalShape
import DiStore.Cluster.QuickPut
import DiStore.DataLayer.Images
import DiStore.Memory.Fresh
import DiStore.SearchLayer.Ordered

/-!
Contract: the state after a successful flush.

Owns: the states a flush can start from (`ComputeNode.Unflushed`), the whole effect
of a flush (`ComputeNode.Flushed`), and the two record sets it leaves in remote
memory.

Does not own: whether the flush keeps what clients read
(`Cluster.FlushRefinement`).
-/

set_option autoImplicit false

namespace DiStore.Cluster

open DiStore.Concurrency DiStore.DataLayer DiStore.Memory DiStore.SearchLayer

variable [Digest]

/-! ### The two images -/

theorem find_sealed (node : LinkedNode) (key : Bytes16) :
    (sealed node).find key.val = node.find key.val := rfl

/-- The larger image maps what the full node maps, and the new record. -/
theorem find_flushLarger {flushNode target : LinkedNode} {llink rlink : RemotePointer}
    (bounded : target.next ≤ 10) (key value other : Bytes16) :
    (flushLarger flushNode target llink rlink key.val value.val).find other.val =
      if other = key then (target.find key.val).or (some value) else target.find other.val := by
  have copied : ∀ probe : Bytes16,
      (flushCopy flushNode target llink rlink).find probe.val = target.find probe.val := by
    intro probe
    have sameNext : (flushCopy flushNode target llink rlink).next = target.next := rfl
    refine LinkedNode.find_congr sameNext (fun _ _ => rfl) (fun index bound => ?_) probe
    exact if_pos (Nat.lt_of_lt_of_le bound bounded)
  have room : (flushCopy flushNode target llink rlink).next < 12 :=
    Nat.lt_of_le_of_lt bounded (by decide)
  rw [flushLarger, find_sealed, LinkedNode.find_store room, copied, copied]

theorem flushLarger_next_le {flushNode target : LinkedNode} {llink rlink : RemotePointer}
    (bounded : target.next ≤ 10) (key value : Str) :
    (flushLarger flushNode target llink rlink key value).next ≤ 12 := by
  have fits : (flushCopy flushNode target llink rlink).next ≤ 12 := Nat.le_trans bounded (by decide)
  exact LinkedNode.store_next_le fits key value

theorem flushLarger_type {flushNode target : LinkedNode} {llink rlink : RemotePointer}
    (key value : Str) :
    (flushLarger flushNode target llink rlink key value).type = flushNode.type := by
  unfold flushLarger sealed
  rcases LinkedNode.store_cases (flushCopy flushNode target llink rlink) 12 key value with
    ⟨_, eq⟩ | ⟨_, _, eq⟩ | ⟨_, _, eq⟩ <;> rw [eq] <;> rfl

namespace ComputeNode

variable {source : SegmentSource} {node : ComputeNode} {thread : ThreadId}

/-- The data node of `head`. -/
def fakeHead (node : ComputeNode) : RemotePointer := (node.slist.nodes SkipList.head).dataNode

/-- The states in which `quick_put` can still flush for the first time. -/
structure Unflushed (source : SegmentSource) (node : ComputeNode) : Prop where
  slist : node.slist = .empty node.fakeHead
  sound : RemoteHeap.Sound source node.heap
  headTaken : ¬ RemoteHeap.Reserve source node.heap node.fakeHead
  staysLocal : node.remotePut = false
  shape : node.stage.Shape
  tag : node.flushNode.type = .type12

omit [Digest] in
/-- `allocate` with a size of the data layer. -/
theorem allocate_spec (node : ComputeNode) (thread : ThreadId)
    (sound : RemoteHeap.Sound source node.heap) {size : Nat} (large : 16 < size)
    (small : size ≤ memoryPageSize) :
    ∃ remote heap, node.allocate source thread size =
        (remote, { node with heap := heap, allocations := (remote, size) :: node.allocations }) ∧
      RemoteHeap.Took source node.heap heap remote (getClass size).size := by
  obtain ⟨chunk, heap, allocated, took⟩ := sound.allocate thread size (getClass_spec large small).1
  exact ⟨chunk, heap, by simp [allocate, allocated], took⟩

omit [Digest] in
theorem sizeofNode_fits (type : LinkedNodeType) (isData : type.IsData) :
    16 < sizeofNode type ∧ sizeofNode type ≤ memoryPageSize := by
  cases type <;> first | exact absurd isData id | decide

omit [Digest] in
/-- A chunk is taken once it has been handed out, and was free before. -/
theorem took_start {first second : RemoteHeap} {remote size : Nat} (positive : 0 < size)
    (took : RemoteHeap.Took source first second remote size) :
    RemoteHeap.Reserve source first remote ∧ ¬ RemoteHeap.Reserve source second remote :=
  took.chunk remote le_rfl (Nat.lt_add_of_pos_right positive)

theorem initialized_unflushed (source : SegmentSource) (thread : ThreadId)
    (memory : RemotePointer → LinkedNode) (buffers : ThreadId → Nat → LinkedNode)
    (heap : Fin 2 → LinkedNode) {stage : LocalStage} (shape : stage.Shape) :
    Unflushed source { initialized source thread memory buffers heap with stage := stage } := by
  obtain ⟨chunk, after, allocated, took⟩ := (RemoteHeap.sound_empty source).allocate thread
    (sizeofNode .typeHead) (getClass_spec (by decide) (by decide)).1
  have positive : 0 < (getClass (sizeofNode .typeHead)).size := by decide
  obtain ⟨state, isState⟩ : ∃ state, state = initialized source thread memory buffers heap := ⟨_, rfl⟩
  rw [← isState]
  unfold initialized at isState
  simp only [allocated] at isState
  subst isState
  exact ⟨rfl, took.sound, (took_start positive took).2, rfl, shape, rfl⟩

/-- Everything a successful flush changes, from a node whose key is already picked. -/
structure Flushed (source : SegmentSource) (thread : ThreadId) (before : ComputeNode) (slot : Fin 2)
    (key value : Str) (draws : FlushDraws) (larger smaller : RemotePointer) (after : ComputeNode) :
    Prop where
  sound : RemoteHeap.Sound source after.heap
  largerTaken : ¬ RemoteHeap.Reserve source after.heap larger
  smallerTaken : ¬ RemoteHeap.Reserve source after.heap smaller
  headTaken : ¬ RemoteHeap.Reserve source after.heap before.fakeHead
  differ : larger ≠ smaller
  largerNotHead : larger ≠ before.fakeHead
  smallerNotHead : smaller ≠ before.fakeHead
  largerPos : larger ≠ nullptr
  smallerPos : smaller ≠ nullptr
  largerRemote : after.remote larger = LinkedNode.overlay (sizeofNode .type12)
    (largerImage before.flushNode before.stage slot smaller key value) (before.remote larger)
  smallerRemote : after.remote smaller = LinkedNode.overlay (sizeofNode .type10)
    (sealed (smallerNode before.stage slot larger)) (before.remote smaller)
  otherRemote : ∀ remote, remote ≠ larger → remote ≠ smaller → after.remote remote = before.remote remote
  slist : after.slist =
    if slot = 0 then
      (before.slist.insert (before.stage.anchors 0) larger .type12 draws.firstLevel.val).insert
        (before.stage.anchors 1) smaller .type10 draws.secondLevel.val
    else
      (before.slist.insert (before.stage.anchors 0) smaller .type10 draws.firstLevel.val).insert
        (before.stage.anchors 1) larger .type12 draws.secondLevel.val
  remotePut : after.remotePut = true
  contexts : after.contexts = before.contexts
  updateQueue : after.updateQueue = before.updateQueue
  buffers : ∀ other ≠ thread, after.buffers other = before.buffers other

/-- The stores of a flush whose writes are done. -/
theorem flushTo_spec (node : ComputeNode) (thread : ThreadId) (slot : Fin 2) {larger smaller : RemotePointer}
    (key value : Str) {draws : FlushDraws} (differ : larger ≠ smaller)
    (largerDone : draws.largerWrite = .done) (smallerDone : draws.smallerWrite = .done) :
    ∃ after, node.flushTo thread slot larger smaller key value draws = (true, after) ∧
      after.heap = node.heap ∧
      after.remote larger = LinkedNode.overlay (sizeofNode .type12)
        (largerImage node.flushNode node.stage slot smaller key value) (node.remote larger) ∧
      after.remote smaller = LinkedNode.overlay (sizeofNode .type10)
        (sealed (smallerNode node.stage slot larger)) (node.remote smaller) ∧
      (∀ remote, remote ≠ larger → remote ≠ smaller → after.remote remote = node.remote remote) ∧
      after.slist = (node.flushIndex slot larger smaller draws).slist ∧
      after.remotePut = true ∧ after.contexts = node.contexts ∧ after.updateQueue = node.updateQueue ∧
      ∀ other ≠ thread, after.buffers other = node.buffers other := by
  obtain ⟨result, isResult⟩ : ∃ result, result = node.flushTo thread slot larger smaller key value draws :=
    ⟨_, rfl⟩
  rw [← isResult]
  unfold flushTo writeTo at isResult
  simp only [largerDone, smallerDone, decide_true, if_true] at isResult
  refine ⟨result.2, by rw [isResult], ?_⟩
  subst isResult
  refine ⟨rfl, ?_, ?_, ?_, rfl, rfl, rfl, rfl, ?_⟩
  · simp [flushIndex, write, setSlot, Completion.performed, differ, LinkedNode.overlay_overlay]
  · simp [flushIndex, write, setSlot, Completion.performed, differ.symm, LinkedNode.overlay_overlay]
  · intro remote notLarger notSmaller
    simp [flushIndex, write, setSlot, Completion.performed, notLarger, notSmaller]
  · intro other differs
    simp [flushIndex, write, setSlot, differs]

/-- The whole flush, chunks included. -/
theorem flush_spec (node : ComputeNode) (thread : ThreadId) (sound : RemoteHeap.Sound source node.heap)
    (headTaken : ¬ RemoteHeap.Reserve source node.heap node.fakeHead) (slot : Fin 2)
    (key value : Str) {draws : FlushDraws}
    (largerDone : draws.largerWrite = .done) (smallerDone : draws.smallerWrite = .done) :
    ∃ larger smaller after, node.flush source thread slot key value draws = (true, after) ∧
      Flushed source thread node slot key value draws larger smaller after := by
  obtain ⟨fits10, small10⟩ := sizeofNode_fits .type10 trivial
  obtain ⟨fits12, small12⟩ := sizeofNode_fits .type12 trivial
  obtain ⟨smaller, heap1, allocated1, took1⟩ :=
    allocate_spec node thread sound fits10 small10
  obtain ⟨larger, heap2, allocated2, took2⟩ := allocate_spec
    { node with heap := heap1, allocations := (smaller, sizeofNode .type10) :: node.allocations }
    thread took1.sound fits12 small12
  obtain ⟨smallerFree, smallerTaken⟩ := took_start (by decide) took1
  obtain ⟨largerFree, largerTaken⟩ := took_start (by decide) took2
  have differ : larger ≠ smaller := by
    rintro rfl
    exact smallerTaken largerFree
  obtain ⟨after, flushed, heap, largerRemote, smallerRemote, otherRemote, slist, remotePut, contexts,
    updateQueue, buffers⟩ := flushTo_spec
      { node with
        heap := heap2
        allocations := (larger, sizeofNode .type12) :: (smaller, sizeofNode .type10) :: node.allocations }
      thread slot key value differ largerDone smallerDone
  refine ⟨larger, smaller, after, ?_, ?_⟩
  · unfold flush
    simp only [allocated1, allocated2]
    exact flushed
  · refine ⟨heap ▸ took2.sound, heap ▸ largerTaken, ?_, ?_, differ, ?_, ?_,
      (took1.sound.pos_of_reserve largerFree).ne', (sound.pos_of_reserve smallerFree).ne',
      largerRemote, smallerRemote, otherRemote, slist, remotePut, contexts, updateQueue, buffers⟩
    · rw [heap]
      exact fun reserved => smallerTaken (took2.shrinks _ reserved)
    · rw [heap]
      exact fun reserved => headTaken (took1.shrinks _ (took2.shrinks _ reserved))
    · rintro rfl
      exact headTaken (took1.shrinks _ largerFree)
    · rintro rfl
      exact headTaken smallerFree

/-- `quick_put` on a full node is the flush of the picked stage. -/
theorem quickPut_flushes (unflushed : Unflushed source node) {key value : Str} {draws : FlushDraws}
    (full : node.stage.quickPut key value = none) :
    node.quickPut source thread key value draws =
      flush { node with stage := (node.stage.quickPutPickNode key).1 } source thread
        (node.stage.quickPutPickNode key).2 key value draws := by
  have refused := LocalStage.quickPut_eq_none_iff.mp full
  unfold quickPut
  rw [unflushed.staysLocal]
  simp only [Bool.false_eq_true, if_false, LinkedNode.store_fst, decide_eq_true_eq, if_neg refused]

end ComputeNode

end DiStore.Cluster
