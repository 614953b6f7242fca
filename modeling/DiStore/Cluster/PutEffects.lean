import DiStore.Cluster.WriteBack

/-!
Contract: the whole effect of each path of a put whose writes are done.

Owns: the buffer after the fetch (`fetchedPred`, `fetchedReal`), the effect of
writing in place, of moving the node to a larger chunk (`Rewritten`) and of
splitting it (`SplitInTwo`), and which path `putWon` takes.

Does not own: what the images hold. They are whatever the served queue made of the
fetched ones.
-/

set_option autoImplicit false

namespace DiStore.Cluster.ComputeNode

open DiStore.Concurrency DiStore.DataLayer DiStore.Memory DiStore.SearchLayer

section Fetch

variable (node : ComputeNode) (thread : ThreadId) (target : NodeId)

/-- The first slot after `fetch_two`. -/
def fetchedPred : LinkedNode :=
  LinkedNode.overlay (sizeofNode (node.slist.nodes (node.backwardOf target)).type)
    (node.remote (node.predData target)) (node.buffers thread 0)

/-- The second slot after `fetch_two`. -/
def fetchedReal : LinkedNode :=
  LinkedNode.overlay (sizeofNode (node.slist.nodes target).type)
    (node.remote (node.slist.nodes target).dataNode) (node.buffers thread 1)

theorem fetchTwo_eq : node.fetchTwo thread target =
    { node with
      buffers := Function.update node.buffers thread
        (Function.update (Function.update (node.buffers thread) 1 (node.fetchedReal thread target)) 0
          (node.fetchedPred thread target)) } := by
  simp [fetchTwo, read, setSlot, fetchedReal, fetchedPred, predData, backwardOf]

end Fetch

variable [Digest] {source : SegmentSource} {thread : ThreadId} {target : NodeId}

/-- The node moved to a new chunk `remote`, with image `real`, and its predecessor's
image `pred` linked to it. -/
structure Rewritten (source : SegmentSource) (before : ComputeNode) (thread : ThreadId) (target : NodeId)
    (pred real : LinkedNode) (requests : List ConcurrencyRequest) (remote : RemotePointer)
    (after : ComputeNode) : Prop where
  sound : RemoteHeap.Sound source after.heap
  shrinks : ∀ address, RemoteHeap.Reserve source after.heap address →
    RemoteHeap.Reserve source before.heap address
  fresh : RemoteHeap.Reserve source before.heap remote
  taken : ¬ RemoteHeap.Reserve source after.heap remote
  notNull : remote ≠ nullptr
  apart : remote ≠ before.predData target
  memory : after.remote = Function.update
    (Function.update before.remote (before.predData target)
      (LinkedNode.overlay (sizeofNode pred.type) { pred with rlink := remote }
        (before.remote (before.predData target))))
    remote (LinkedNode.overlay (sizeofNode real.type) real (before.remote remote))
  moved : Moved before.slist after.slist target remote real.type
  contexts : after.contexts = Function.update before.contexts thread
    { before.contexts thread with requests := requests }
  updateQueue : after.updateQueue = before.updateQueue
  remotePut : after.remotePut = before.remotePut
  otherBuffers : ∀ other ≠ thread, after.buffers other = before.buffers other
  allocations : after.allocations = (remote, sizeofNode real.type) :: before.allocations
  posted : after.posted = (remote, sizeofNode real.type) ::
    (before.predData target, sizeofNode pred.type) :: before.posted

omit [Digest] in
/-- A staged image written to a new chunk, and the search node moved there. -/
theorem staged_rewritten {node : ComputeNode} (thread : ThreadId) (target : NodeId) (pred real : LinkedNode)
    (requests : List ConcurrencyRequest) (sound : RemoteHeap.Sound source node.heap)
    (predTaken : ¬ RemoteHeap.Reserve source node.heap (node.predData target))
    (isData : real.type.IsData) :
    ∃ remote heap, (node.staged thread pred real requests).writeBackMorphed source thread target .done =
        (remote, (node.staged thread pred real requests).morphedTo thread target remote heap) ∧
      remote ≠ nullptr ∧
      Rewritten source node thread target pred real requests remote
        ((((node.staged thread pred real requests).morphedTo thread target remote heap).setDataNode target
          remote).setType target real.type) := by
  have isPred : (node.staged thread pred real requests).buffers thread 0 = pred := by
    simp [staged, setSlot, setRequests]
  have isReal : (node.staged thread pred real requests).buffers thread 1 = real := by
    simp [staged, setSlot, setRequests]
  obtain ⟨remote, heap, written, soundAfter, notNull, apart, shrinks, free, taken⟩ :=
    (node.staged thread pred real requests).writeBackMorphed_done thread target sound
      (by rw [isReal]; exact isData) predTaken
  refine ⟨remote, heap, written, notNull,
    ⟨soundAfter, shrinks, free, taken, notNull, apart, ?_, ?_, ?_, rfl, rfl, ?_, ?_, ?_⟩⟩
  · change Function.update _ _ _ = _
    rw [predLinked, isPred, isReal]
    rfl
  · have first := moved_setDataNode node.slist target remote
    have second := moved_setDataNode (node.slist.setDataNode target remote) target remote
    have third := moved_setType ((node.slist.setDataNode target remote).setDataNode target remote)
      target real.type
    have place : (((node.slist.setDataNode target remote).setDataNode target remote).nodes
        target).dataNode = remote := by
      simp [SkipList.setDataNode, SkipList.setNode]
    rw [place] at third
    exact (first.trans second).trans third
  · simp [staged, setSlot, setRequests, morphedTo, setDataNode, setType, setSlist]
  · intro other differs
    simp [staged, setSlot, setRequests, morphedTo, setDataNode, setType, setSlist, differs]
  · change _ :: _ = _
    rw [isReal]
    rfl
  · change _ :: _ :: _ = _
    rw [isReal, isPred]
    rfl

theorem morphPath_done (node : ComputeNode) (thread : ThreadId) (target : NodeId) (key value : Str)
    {draws : PutDraws} (done : Bool) (sound : RemoteHeap.Sound source node.heap)
    (predTaken : ¬ RemoteHeap.Reserve source node.heap (node.predData target))
    (isDone : draws.batch = .done) {work : Handover}
    (isWork : node.morphWork thread target key value done = work) :
    ∃ remote after,
      node.morphPath source thread target key value draws done = ⟨true, work.replies, after⟩ ∧
      Rewritten source node thread target work.pred (sealedAs (morphNode work.real) work.real)
        work.requests remote after := by
  obtain ⟨remote, heap, written, notNull, rewritten⟩ := staged_rewritten thread target work.pred
    (sealedAs (morphNode work.real) work.real) work.requests sound predTaken
    (morphNode_isData work.real)
  refine ⟨remote, _, ?_, rewritten⟩
  unfold morphPath
  rw [isDone, isWork]
  simp only [written]
  simp [notNull]

theorem eagerMorph_done (node : ComputeNode) (thread : ThreadId) (target : NodeId) (key value : Str)
    {draws : PutDraws} (done : Bool) (sound : RemoteHeap.Sound source node.heap)
    (predTaken : ¬ RemoteHeap.Reserve source node.heap (node.predData target))
    (isDone : draws.batch = .done) {work : Handover}
    (isWork : node.eagerWork thread target key value done = work) :
    ∃ remote after,
      node.eagerMorph source thread target key value draws done = ⟨true, work.replies, after⟩ ∧
      Rewritten source node thread target work.pred (sealedAs .type16 work.real) work.requests remote
        after := by
  obtain ⟨remote, heap, written, notNull, rewritten⟩ := staged_rewritten thread target work.pred
    (sealedAs .type16 work.real) work.requests sound predTaken trivial
  refine ⟨remote, ?_⟩
  unfold eagerMorph
  rw [isDone, isWork]
  simp only [written, if_neg notNull]
  refine ⟨_, rfl, ?_⟩
  -- the last store to `pred->rlink` repeats one of `write_back_morphed`
  refine ⟨rewritten.sound, rewritten.shrinks, rewritten.fresh, rewritten.taken, notNull, rewritten.apart,
    rewritten.memory, rewritten.moved, rewritten.contexts, rewritten.updateQueue, rewritten.remotePut, ?_,
    rewritten.allocations, rewritten.posted⟩
  intro other differs
  have same := rewritten.otherBuffers other differs
  simp only [setSlot, setDataNode, setType, setSlist] at same ⊢
  rw [Function.update_of_ne differs]
  exact same

/-- The node split: its left half in chunk `l` under the old search node, its right
half in chunk `r` under a new one. -/
structure SplitInTwo (source : SegmentSource) (before : ComputeNode) (thread : ThreadId) (target : NodeId)
    (pred left right : LinkedNode) (anchor : Str) (leftArgument rightArgument : LinkedNodeType)
    (requests : List ConcurrencyRequest) (level : Level) (l r : RemotePointer) (after : ComputeNode) :
    Prop where
  sound : RemoteHeap.Sound source after.heap
  shrinks : ∀ address, RemoteHeap.Reserve source after.heap address →
    RemoteHeap.Reserve source before.heap address
  leftFresh : RemoteHeap.Reserve source before.heap l ∧ ¬ RemoteHeap.Reserve source after.heap l
  rightFresh : RemoteHeap.Reserve source before.heap r ∧ ¬ RemoteHeap.Reserve source after.heap r
  leftNotNull : l ≠ nullptr
  rightNotNull : r ≠ nullptr
  differ : l ≠ r
  leftApart : l ≠ before.predData target
  rightApart : r ≠ before.predData target
  memory : after.remote = Function.update
    (Function.update
      (Function.update before.remote (before.predData target)
        (LinkedNode.overlay (sizeofNode pred.type) { pred with rlink := l }
          (before.remote (before.predData target))))
      l (LinkedNode.overlay (sizeofNode leftArgument) { left with rlink := r } (before.remote l)))
    r (LinkedNode.overlay (sizeofNode rightArgument) { right with rlink := left.rlink } (before.remote r))
  linked : ∃ middle, Moved before.slist middle target l (before.slist.nodes target).type ∧
    Moved (middle.linkBehind target anchor right.type r).2 after.slist target l left.type
  contexts : after.contexts = Function.update before.contexts thread
    { before.contexts thread with requests := requests }
  updateQueue : after.updateQueue =
    if level.val = 1 then before.updateQueue
    else before.updateQueue ++ [⟨level.val, before.slist.count⟩]
  remotePut : after.remotePut = before.remotePut
  otherBuffers : ∀ other ≠ thread, after.buffers other = before.buffers other
  allocations : after.allocations =
    (r, sizeofNode rightArgument) :: (l, sizeofNode leftArgument) :: before.allocations
  posted : after.posted = (r, sizeofNode rightArgument) :: (l, sizeofNode leftArgument) ::
    (before.predData target, sizeofNode pred.type) :: before.posted

/-- The state in which both halves are ready to be written. -/
def halvesStaged (node : ComputeNode) (thread : ThreadId) (pred left right : LinkedNode)
    (requests : List ConcurrencyRequest) : ComputeNode :=
  (node.staged thread pred left requests).setSlot thread 2 right

omit [Digest] in
theorem asyncUpdate_eq (node : ComputeNode) (target : NodeId) (anchor : Str) (type : LinkedNodeType)
    (remote : RemotePointer) (level : Level) :
    node.asyncUpdate target anchor type remote level =
      { node with
        slist := (node.slist.linkBehind target anchor type remote).2
        updateQueue :=
          if level.val = 1 then node.updateQueue
          else node.updateQueue ++ [⟨level.val, node.slist.count⟩] } := by
  have isNew := (SkipList.linkBehind_created node.slist target anchor remote type).1
  unfold asyncUpdate
  by_cases one : level.val = 1
  · simp [one, setSlist]
  · simp [one, setSlist, isNew]

/-- Sealing the halves in their slots. -/
theorem halvesStaged_sealed (node : ComputeNode) (thread : ThreadId) (pred left right : LinkedNode)
    (requests : List ConcurrencyRequest) (leftType rightType : LinkedNodeType) :
    let first := node.halvesStaged thread pred left right requests
    let second := first.setSlot thread 1 (sealedAs leftType (first.buffers thread 1))
    second.setSlot thread 2 (sealedAs rightType (second.buffers thread 2)) =
      node.halvesStaged thread pred (sealedAs leftType left) (sealedAs rightType right) requests := by
  simp only [halvesStaged, staged, setSlot, setRequests]
  congr 1
  funext other slot
  by_cases isThread : other = thread
  · subst isThread
    by_cases isRight : slot = 2
    · simp [isRight]
    · by_cases isLeft : slot = 1
      · simp [isLeft]
      · simp [isRight, isLeft]
  · simp [isThread]

theorem splitPath_done (node : ComputeNode) (thread : ThreadId) (target : NodeId) (key value : Str)
    {draws : PutDraws} (leftCap : Nat) (leftType rightType : LinkedNodeType)
    {leftArgument rightArgument : LinkedNodeType}
    (done : Bool) (sound : RemoteHeap.Sound source node.heap)
    (predTaken : ¬ RemoteHeap.Reserve source node.heap (node.predData target))
    (leftData : leftArgument.IsData) (rightData : rightArgument.IsData)
    (known : target ≠ node.slist.count) (isDone : draws.batch = .done) {work : Handover}
    (isWork : node.splitWork thread target key value done = work) {halves : LinkedNode × LinkedNode × Str}
    (isHalves : splitBuffer work.real (node.buffers thread 1) (node.buffers thread 2) leftCap = halves) :
    ∃ l r after,
      node.splitPath source thread target key value draws leftCap leftType rightType leftArgument
        rightArgument done = ⟨true, work.replies, after⟩ ∧
      SplitInTwo source node thread target work.pred (sealedAs leftType halves.1)
        (sealedAs rightType halves.2.1) halves.2.2 leftArgument rightArgument work.requests draws.level l r
        after := by
  obtain ⟨ready, isReady⟩ : ∃ ready, ready = node.halvesStaged thread work.pred
    (sealedAs leftType halves.1) (sealedAs rightType halves.2.1) work.requests := ⟨_, rfl⟩
  have slotPred : ready.buffers thread 0 = work.pred := by
    rw [isReady]
    simp [halvesStaged, staged, setSlot, setRequests]
  have slotLeft : ready.buffers thread 1 = sealedAs leftType halves.1 := by
    rw [isReady]
    simp [halvesStaged, staged, setSlot, setRequests]
  have slotRight : ready.buffers thread 2 = sealedAs rightType halves.2.1 := by
    rw [isReady]
    simp [halvesStaged, staged, setSlot, setRequests]
  have sameData : ready.predData target = node.predData target := by
    rw [isReady]
    rfl
  obtain ⟨l, r, heap, written, soundAfter, leftNotNull, rightNotNull, differ, leftApart, rightApart,
    shrinks, leftFresh, rightFresh⟩ := ready.writeBackSplitted_done thread target
      (show RemoteHeap.Sound source ready.heap by rw [isReady]; exact sound) leftData rightData
      (by rw [isReady]; exact predTaken)
  refine ⟨l, r, ?_⟩
  unfold splitPath outOfPlaceSplitNode
  rw [isWork, isDone]
  simp only [isHalves]
  have sealedHalves := halvesStaged_sealed node thread work.pred halves.1 halves.2.1 work.requests
    leftType rightType
  rw [← isReady] at sealedHalves
  simp only [halvesStaged] at sealedHalves
  rw [sealedHalves]
  simp only [written, if_neg rightNotNull, asyncUpdate_eq]
  refine ⟨_, rfl, ?_⟩
  have sameHeap : ready.heap = node.heap := by rw [isReady]; rfl
  have sameRemote : ready.remote = node.remote := by rw [isReady]; rfl
  rw [sameHeap] at shrinks leftFresh rightFresh
  rw [sameData] at leftApart rightApart
  refine ⟨soundAfter, shrinks, leftFresh, rightFresh, leftNotNull, rightNotNull, differ, leftApart,
    rightApart, ?_, ?_, ?_, ?_, ?_, ?_, ?_, ?_⟩
  · change Function.update _ _ _ = _
    rw [sameRemote, sameData, slotPred, slotLeft, slotRight, predLinked, slotPred]
  · have first := moved_setDataNode node.slist target l
    refine ⟨_, first, ?_⟩
    obtain ⟨_, created⟩ := SkipList.linkBehind_created (node.slist.setDataNode target l) target
      halves.2.2 r (sealedAs rightType halves.2.1).type
    have place := (created.old target known).2.1
    have second := moved_setType
      ((node.slist.setDataNode target l).linkBehind target halves.2.2
        (sealedAs rightType halves.2.1).type r).2 target leftType
    rw [place] at second
    have isData : ((node.slist.setDataNode target l).nodes target).dataNode = l := by
      simp [SkipList.setDataNode, SkipList.setNode]
    rw [isData] at second
    have isSlist : (ready.splitTo thread target leftArgument rightArgument l r heap).slist =
        node.slist.setDataNode target l := by
      rw [isReady]
      rfl
    simp only [isSlist, setType, setSlist]
    exact second
  · rw [isReady]
    simp [halvesStaged, staged, setSlot, setRequests, splitTo, setType, setSlist]
  · rw [isReady]
    rfl
  · rw [isReady]
    rfl
  · intro other differs
    rw [isReady]
    simp [halvesStaged, staged, setSlot, setRequests, splitTo, setType, setSlist, differs]
  · rw [isReady]
    rfl
  · change _ :: _ :: _ :: _ = _
    rw [sameData, slotPred, isReady]
    rfl

/-! ### The path a put takes -/

omit [Digest] in
/-- The release changes locks and the depth only. -/
theorem release_moved (node : ComputeNode) (thread : ThreadId) (target : NodeId) :
    Moved node.slist (node.release thread target).slist target (node.slist.nodes target).dataNode
      (node.slist.nodes target).type := by
  have first := moved_setCtx node.slist target target none
  have second := moved_setCtx (node.slist.setCtx target none) target
    ((node.setCtx target none).backwardOf target) none
  have data := first.dataNode target
  have type := first.type target
  rw [if_pos rfl] at data type
  rw [data, type] at second
  have third := first.trans second
  have sameBackward : (node.setCtx target none).backwardOf target = node.backwardOf target := by
    change ((node.slist.setCtx target none).nodes target).backward.getD _ = _
    rw [first.backward]
    rfl
  rw [sameBackward] at third
  exact third

omit [Digest] in
theorem Moved.release {slist : SkipList} {after : ComputeNode} {remote : RemotePointer}
    {type : LinkedNodeType} (moved : Moved slist after.slist target remote type) (thread : ThreadId) :
    Moved slist (after.release thread target).slist target remote type := by
  have left := release_moved after thread target
  have data := moved.dataNode target
  have typed := moved.type target
  rw [if_pos rfl] at data typed
  rw [data, typed] at left
  exact moved.trans left

/-- The search nodes after a split and the release. -/
structure SplitNodes (before after : SkipList) (target : NodeId) (anchor : Str) (l r : RemotePointer)
    (leftType rightType : LinkedNodeType) : Prop where
  count : after.count = before.count + 1
  left : (after.nodes target).dataNode = l ∧ (after.nodes target).type = leftType
  right : (after.nodes before.count).dataNode = r ∧ (after.nodes before.count).type = rightType ∧
    (after.nodes before.count).anchor = anchor ∧
    (after.nodes before.count).backward = some target
  others : ∀ node ≠ before.count, (after.nodes node).anchor = (before.nodes node).anchor ∧
    (after.nodes node).backward = (before.nodes node).backward ∧
    (node ≠ target → (after.nodes node).dataNode = (before.nodes node).dataNode ∧
      (after.nodes node).type = (before.nodes node).type)

omit [Digest] in
theorem SplitInTwo.released {before after : ComputeNode} {pred left right : LinkedNode} {anchor : Str}
    {leftArgument rightArgument : LinkedNodeType} {requests : List ConcurrencyRequest} {level : Level}
    {l r : RemotePointer}
    (split : SplitInTwo source before thread target pred left right anchor leftArgument rightArgument
      requests level l r after) (known : target ≠ before.slist.count) :
    SplitNodes before.slist (after.release thread target).slist target anchor l r left.type right.type := by
  obtain ⟨middle, first, second⟩ := split.linked
  obtain ⟨_, created⟩ := SkipList.linkBehind_created middle target anchor r right.type
  have third := second.release thread
  have sameCount : middle.count = before.slist.count := first.count
  have isNew : before.slist.count ≠ target := known.symm
  refine ⟨?_, ?_, ?_, ?_⟩
  · rw [third.count, created.count, sameCount]
  · rw [third.dataNode, third.type, if_pos rfl, if_pos rfl]
    exact ⟨rfl, rfl⟩
  · rw [third.dataNode, third.type, third.anchor, third.backward, if_neg isNew, if_neg isNew, ← sameCount,
      created.dataNode, created.type, created.anchor, created.backward]
    simp
  · intro node old
    rw [← sameCount] at old
    obtain ⟨anchorSame, dataSame, typeSame, _⟩ := created.old node old
    refine ⟨?_, ?_, fun notTarget => ⟨?_, ?_⟩⟩
    · rw [third.anchor, anchorSame, first.anchor]
    · rw [third.backward, created.backward, if_neg (by simp), if_neg old, first.backward]
    · rw [third.dataNode, if_neg notTarget, dataSame, first.dataNode, if_neg notTarget]
    · rw [third.type, if_neg notTarget, typeSame, first.type, if_neg notTarget]

omit [Digest] in
theorem fetchTwo_buffers (node : ComputeNode) (thread : ThreadId) (target : NodeId) :
    (node.fetchTwo thread target).buffers thread 0 = node.fetchedPred thread target ∧
      (node.fetchTwo thread target).buffers thread 1 = node.fetchedReal thread target := by
  rw [fetchTwo_eq]
  simp

/-- Whether the put's own record finds room. -/
theorem fetched_stored {node : ComputeNode} {type : LinkedNodeType} (key value : Str) :
    (((node.fetchTwo thread target).buffers thread 1).store type.capacity key value).1 =
      decide ((node.fetchedReal thread target).next < type.capacity) := by
  rw [(node.fetchTwo_buffers thread target).2, LinkedNode.store_fst]

/-- A node that refuses the put's own record leaves everything to the plan. -/
theorem putWon_full {node : ComputeNode} (key value : Str) (draws : PutDraws) {type : LinkedNodeType}
    (plan : Nat → PutPlan) (full : type.capacity ≤ (node.fetchedReal thread target).next) :
    node.putWon source thread target key value draws type plan =
      let outcome := (node.fetchTwo thread target).followPlan source thread target key value draws false
        (plan ((node.contexts thread).requests.length + 1))
      ⟨outcome.ret, outcome.replies, outcome.node.release thread target⟩ := by
  have sameContexts : (node.fetchTwo thread target).contexts = node.contexts := rfl
  have refused : (((node.fetchTwo thread target).buffers thread 1).store type.capacity key value).1 =
      false := by
    rw [fetched_stored]
    exact decide_eq_false (by omega)
  unfold putWon tryPutToExistingNode
  simp [refused, sameContexts]

/-- A put whose queue ends up empty writes its own node in place. -/
theorem putWon_inPlace {node : ComputeNode} (key value : Str) {draws : PutDraws} {type : LinkedNodeType}
    (plan : Nat → PutPlan) (room : (node.fetchedReal thread target).next < type.capacity)
    (isDone : draws.write = .done) {work : Handover}
    (isWork : (node.fetchTwo thread target).firstWork thread target key value type = work)
    (served : work.requests = []) :
    node.putWon source thread target key value draws type plan =
      ⟨true, work.replies,
        (((node.fetchTwo thread target).staged thread work.pred work.real []).write thread
          (node.slist.nodes target).dataNode (sizeofNode type) 1 .done).release thread target⟩ := by
  have sameSlist : ∀ (pred real : LinkedNode),
      ((node.fetchTwo thread target).staged thread pred real []).slist = node.slist := fun _ _ => rfl
  have stored : (((node.fetchTwo thread target).buffers thread 1).store type.capacity key value).1 =
      true := by
    rw [fetched_stored]
    exact decide_eq_true room
  unfold putWon tryPutToExistingNode
  simp [stored, isWork, isDone, served, writeBackCurrent, sameSlist]

/-- A put that has stored its record but cannot empty the queue. -/
theorem putWon_pending {node : ComputeNode} (key value : Str) (draws : PutDraws) {type : LinkedNodeType}
    (plan : Nat → PutPlan) (room : (node.fetchedReal thread target).next < type.capacity)
    {work : Handover}
    (isWork : (node.fetchTwo thread target).firstWork thread target key value type = work)
    (pending : work.requests ≠ []) :
    node.putWon source thread target key value draws type plan =
      let outcome := ((node.fetchTwo thread target).staged thread work.pred work.real
        work.requests).followPlan source thread target key value draws true (plan work.requests.length)
      ⟨outcome.ret, work.replies ++ outcome.replies, outcome.node.release thread target⟩ := by
  have some : work.requests.length ≠ 0 := fun none => pending (List.length_eq_zero_iff.mp none)
  have stored : (((node.fetchTwo thread target).buffers thread 1).store type.capacity key value).1 =
      true := by
    rw [fetched_stored]
    exact decide_eq_true room
  unfold putWon tryPutToExistingNode
  simp [stored, isWork, some]

end DiStore.Cluster.ComputeNode
