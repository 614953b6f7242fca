import DiStore.Cluster.Flush
import DiStore.Cluster.PutWinner

/-!
Contract: the state after a winner's batch of writes is done.

Owns: the whole effect of `write_back_morphed` and `write_back_splitted`, with the
chunks they take, and of `async_update` and the release that follow.

Does not own: what the slots hold when the write-back starts.
-/

set_option autoImplicit false

namespace DiStore.Cluster.ComputeNode

open DiStore.Concurrency DiStore.DataLayer DiStore.Memory DiStore.SearchLayer

variable {source : SegmentSource} (node : ComputeNode) (thread : ThreadId) (target : NodeId)

/-- The data node of `backward`. -/
def predData : RemotePointer := (node.slist.nodes (node.backwardOf target)).dataNode

/-- The image a batch writes to the predecessor: the first slot, linked to `remote`. -/
def predLinked (remote : RemotePointer) : LinkedNode :=
  { node.buffers thread 0 with rlink := remote }

/-- A chunk for a data node, new and not null. -/
theorem allocate_data (sound : RemoteHeap.Sound source node.heap) {type : LinkedNodeType}
    (isData : type.IsData) :
    ∃ remote heap, node.allocate source thread (sizeofNode type) =
        (remote, { node with
          heap := heap
          allocations := (remote, sizeofNode type) :: node.allocations }) ∧
      RemoteHeap.Sound source heap ∧ remote ≠ nullptr ∧
      (∀ address, RemoteHeap.Reserve source heap address → RemoteHeap.Reserve source node.heap address) ∧
      RemoteHeap.Reserve source node.heap remote ∧ ¬ RemoteHeap.Reserve source heap remote := by
  obtain ⟨large, small⟩ := sizeofNode_fits type isData
  obtain ⟨remote, heap, allocated, took⟩ := allocate_spec node thread sound large small
  have counted := (getClass_spec large small).2
  obtain ⟨free, taken⟩ := took_start (show 0 < (getClass (sizeofNode type)).size by omega) took
  exact ⟨remote, heap, allocated, took.sound, (sound.pos_of_reserve free).ne', took.shrinks, free, taken⟩

/-- The whole state after `write_back_morphed`. -/
def morphedTo (remote : RemotePointer) (heap : RemoteHeap) : ComputeNode :=
  { node with
    heap := heap
    buffers := Function.update node.buffers thread
      (Function.update (node.buffers thread) 0 (node.predLinked thread remote))
    remote := Function.update
      (Function.update node.remote (node.predData target)
        (LinkedNode.overlay (sizeofNode (node.buffers thread 0).type) (node.predLinked thread remote)
          (node.remote (node.predData target))))
      remote
      (LinkedNode.overlay (sizeofNode (node.buffers thread 1).type) (node.buffers thread 1)
        (node.remote remote))
    slist := node.slist.setDataNode target remote
    allocations := (remote, sizeofNode (node.buffers thread 1).type) :: node.allocations
    posted := (remote, sizeofNode (node.buffers thread 1).type) ::
      (node.predData target, sizeofNode (node.buffers thread 0).type) :: node.posted }

theorem writeBackMorphed_done (sound : RemoteHeap.Sound source node.heap)
    (isData : (node.buffers thread 1).type.IsData)
    (predTaken : ¬ RemoteHeap.Reserve source node.heap (node.predData target)) :
    ∃ remote heap, node.writeBackMorphed source thread target .done =
        (remote, node.morphedTo thread target remote heap) ∧
      RemoteHeap.Sound source heap ∧ remote ≠ nullptr ∧ remote ≠ node.predData target ∧
      (∀ address, RemoteHeap.Reserve source heap address → RemoteHeap.Reserve source node.heap address) ∧
      RemoteHeap.Reserve source node.heap remote ∧ ¬ RemoteHeap.Reserve source heap remote := by
  obtain ⟨remote, heap, allocated, soundAfter, notNull, shrinks, free, taken⟩ :=
    node.allocate_data thread sound isData
  have apart : remote ≠ node.predData target := by
    intro same
    rw [same] at free
    exact predTaken free
  refine ⟨remote, heap, ?_, soundAfter, notNull, apart, shrinks, free, taken⟩
  unfold predData backwardOf at apart
  unfold writeBackMorphed
  simp only [allocated, postBatchWrite, writeBatch, List.length_cons, List.length_nil]
  simp [write, setSlot, Completion.performed, setDataNode, setSlist, morphedTo, predLinked, predData,
    backwardOf, apart]

/-- The whole state after `write_back_splitted`, before the search node moves. -/
def splitTo (leftArgument rightArgument : LinkedNodeType) (l r : RemotePointer) (heap : RemoteHeap) :
    ComputeNode :=
  { node with
    heap := heap
    buffers := Function.update node.buffers thread
      (Function.update
        (Function.update (Function.update (node.buffers thread) 0 (node.predLinked thread l)) 2
          { node.buffers thread 2 with rlink := (node.buffers thread 1).rlink }) 1
        { node.buffers thread 1 with rlink := r })
    remote := Function.update
      (Function.update
        (Function.update node.remote (node.predData target)
          (LinkedNode.overlay (sizeofNode (node.buffers thread 0).type) (node.predLinked thread l)
            (node.remote (node.predData target))))
        l
        (LinkedNode.overlay (sizeofNode leftArgument) { node.buffers thread 1 with rlink := r }
          (node.remote l)))
      r
      (LinkedNode.overlay (sizeofNode rightArgument)
        { node.buffers thread 2 with rlink := (node.buffers thread 1).rlink } (node.remote r))
    slist := node.slist.setDataNode target l
    allocations := (r, sizeofNode rightArgument) :: (l, sizeofNode leftArgument) :: node.allocations
    posted := (r, sizeofNode rightArgument) :: (l, sizeofNode leftArgument) ::
      (node.predData target, sizeofNode (node.buffers thread 0).type) :: node.posted }

theorem writeBackSplitted_done (sound : RemoteHeap.Sound source node.heap)
    {leftArgument rightArgument : LinkedNodeType} (leftData : leftArgument.IsData)
    (rightData : rightArgument.IsData)
    (predTaken : ¬ RemoteHeap.Reserve source node.heap (node.predData target)) :
    ∃ l r heap, node.writeBackSplitted source thread target leftArgument rightArgument .done =
        (r, node.splitTo thread target leftArgument rightArgument l r heap) ∧
      RemoteHeap.Sound source heap ∧ l ≠ nullptr ∧ r ≠ nullptr ∧ l ≠ r ∧
      l ≠ node.predData target ∧ r ≠ node.predData target ∧
      (∀ address, RemoteHeap.Reserve source heap address → RemoteHeap.Reserve source node.heap address) ∧
      (RemoteHeap.Reserve source node.heap l ∧ ¬ RemoteHeap.Reserve source heap l) ∧
      RemoteHeap.Reserve source node.heap r ∧ ¬ RemoteHeap.Reserve source heap r := by
  obtain ⟨l, heap₁, allocatedLeft, sound₁, leftNotNull, shrinks₁, leftFree, leftTaken⟩ :=
    node.allocate_data thread sound leftData
  obtain ⟨r, heap₂, allocatedRight, sound₂, rightNotNull, shrinks₂, rightFree, rightTaken⟩ :=
    { node with
      heap := heap₁
      allocations := (l, sizeofNode leftArgument) :: node.allocations }.allocate_data thread sound₁
        rightData
  have differ : l ≠ r := by
    intro same
    rw [same] at leftTaken
    exact leftTaken rightFree
  have leftApart : l ≠ node.predData target := by
    intro same
    rw [same] at leftFree
    exact predTaken leftFree
  have rightApart : r ≠ node.predData target := by
    intro same
    rw [same] at rightFree
    exact predTaken (shrinks₁ _ rightFree)
  refine ⟨l, r, heap₂, ?_, sound₂, leftNotNull, rightNotNull, differ, leftApart, rightApart,
    fun address reserved => shrinks₁ address (shrinks₂ address reserved),
    ⟨leftFree, fun reserved => leftTaken (shrinks₂ l reserved)⟩, shrinks₁ r rightFree, rightTaken⟩
  unfold predData backwardOf at leftApart rightApart
  unfold writeBackSplitted
  simp only [allocatedLeft, allocatedRight, postBatchWrite, writeBatch, List.length_cons,
    List.length_nil]
  simp [write, setSlot, Completion.performed, setDataNode, setSlist, splitTo, predLinked, predData,
    backwardOf, leftApart, rightApart, differ.symm]

/-! ### The search layer after a write-back -/

/-- `target` moved to another chunk; nothing else changed but locks. -/
structure Moved (before after : SkipList) (target : NodeId) (remote : RemotePointer)
    (type : LinkedNodeType) : Prop where
  count : after.count = before.count
  currentLevel : after.currentLevel = before.currentLevel
  forward : ∀ level node, after.forward level node = before.forward level node
  anchor : ∀ node, (after.nodes node).anchor = (before.nodes node).anchor
  backward : ∀ node, (after.nodes node).backward = (before.nodes node).backward
  dataNode : ∀ node, (after.nodes node).dataNode =
    if node = target then remote else (before.nodes node).dataNode
  type : ∀ node, (after.nodes node).type = if node = target then type else (before.nodes node).type

theorem Moved.trans {first second third : SkipList} {target : NodeId} {middle remote : RemotePointer}
    {between type : LinkedNodeType} (left : Moved first second target middle between)
    (right : Moved second third target remote type) : Moved first third target remote type where
  count := right.count.trans left.count
  currentLevel := right.currentLevel.trans left.currentLevel
  forward level node := (right.forward level node).trans (left.forward level node)
  anchor node := (right.anchor node).trans (left.anchor node)
  backward node := (right.backward node).trans (left.backward node)
  dataNode node := by
    rw [right.dataNode, left.dataNode]
    split <;> rfl
  type node := by
    rw [right.type, left.type]
    split <;> rfl

theorem moved_setDataNode (slist : SkipList) (target : NodeId) (remote : RemotePointer) :
    Moved slist (slist.setDataNode target remote) target remote (slist.nodes target).type := by
  constructor
  case count => rfl
  case currentLevel => rfl
  all_goals
    intros
    simp only [SkipList.setDataNode, SkipList.setNode, SkipList.forward, Function.update_apply]
    split <;> simp_all

theorem moved_setType (slist : SkipList) (target : NodeId) (type : LinkedNodeType) :
    Moved slist (slist.setType target type) target (slist.nodes target).dataNode type := by
  constructor
  case count => rfl
  case currentLevel => rfl
  all_goals
    intros
    simp only [SkipList.setType, SkipList.setNode, SkipList.forward, Function.update_apply]
    split <;> simp_all

theorem moved_setCtx (slist : SkipList) (target locked : NodeId) (ctx : Option ThreadId) :
    Moved slist (slist.setCtx locked ctx) target (slist.nodes target).dataNode
      (slist.nodes target).type := by
  constructor
  case count => rfl
  case currentLevel => rfl
  all_goals
    intros
    simp only [SkipList.setCtx, SkipList.setNode, SkipList.forward, Function.update_apply]
    split <;> simp_all

end DiStore.Cluster.ComputeNode
