import DiStore.Cluster.Client
import DiStore.Cluster.WriteFailures
import DiStore.SearchLayer.Closed

/-!
Contract: the states between two calls of a lone client.

Owns: the invariant `ComputeNode.Idle`, that every call that returns keeps it, and
what `update` does from such a state.
-/

set_option autoImplicit false

namespace DiStore.Cluster.ComputeNode

open DiStore.Concurrency DiStore.DataLayer DiStore.Memory DiStore.SearchLayer

/-- What a put does to the search layer while it holds its locks. -/
structure Advances (before after : ComputeNode) : Prop where
  slist : SkipList.Evolves before.slist after.slist
  queue : ∀ entry ∈ after.updateQueue, entry ∈ before.updateQueue ∨ entry.newNode < after.slist.count

theorem Advances.trans {first second third : ComputeNode} (left : Advances first second)
    (right : Advances second third) : Advances first third where
  slist := left.slist.trans right.slist
  queue entry isEntry := by
    rcases right.queue entry isEntry with isOld | known
    · rcases left.queue entry isOld with isOlder | known
      · exact Or.inl isOlder
      · exact Or.inr (known.trans_le right.slist.count)
    · exact Or.inr known

/-- Stores outside of the search layer. -/
theorem advances_of_same {before after : ComputeNode} (slist : after.slist = before.slist)
    (queue : after.updateQueue = before.updateQueue) : Advances before after := by
  refine ⟨?_, fun entry isEntry => Or.inl (queue ▸ isEntry)⟩
  rw [slist]
  exact SkipList.Evolves.refl _

theorem advances_setSlist {node : ComputeNode} {slist : SkipList} (evolves : SkipList.Evolves node.slist slist) :
    Advances node (node.setSlist slist) :=
  ⟨evolves, fun _ isEntry => Or.inl isEntry⟩

theorem advances_setDataNode (node : ComputeNode) (target : NodeId) (remote : RemotePointer) :
    Advances node (node.setDataNode target remote) :=
  advances_setSlist (SkipList.evolves_setNode node.slist target _ rfl rfl (Or.inl rfl))

theorem advances_setType (node : ComputeNode) (target : NodeId) (type : LinkedNodeType) :
    Advances node (node.setType target type) :=
  advances_setSlist (SkipList.evolves_setNode node.slist target _ rfl rfl (Or.inl rfl))

variable {source : SegmentSource} {node : ComputeNode} {thread : ThreadId} {target : NodeId}
variable {draws : PutDraws}

theorem writeBatch_queue (node : ComputeNode) (thread : ThreadId) (requests : List WorkRequest)
    (performed : Nat) : (node.writeBatch thread requests performed).updateQueue = node.updateQueue := by
  induction requests generalizing node performed with
  | nil => rfl
  | cons request rest ih => exact ih _ _

/-- A batch changes no search node, done or not. -/
theorem advances_postBatchWrite (node : ComputeNode) (thread : ThreadId) (requests : List WorkRequest)
    (completion : BatchCompletion) : Advances node (node.postBatchWrite thread requests completion).2 := by
  cases completion with
  | done =>
      exact advances_of_same (writeBatch_slist node thread requests _)
        (writeBatch_queue node thread requests _)
  | failed performed =>
      exact advances_of_same (writeBatch_slist node thread requests performed)
        (writeBatch_queue node thread requests performed)

theorem advances_writeBackMorphed (node : ComputeNode) (completion : BatchCompletion) :
    Advances node (node.writeBackMorphed source thread target completion).2 := by
  unfold writeBackMorphed
  simp only
  split
  next =>
    apply Advances.trans _ (advances_setDataNode _ _ _)
    apply Advances.trans _ (advances_postBatchWrite _ _ _ _)
    exact advances_of_same rfl rfl
  next =>
    apply Advances.trans _ (advances_postBatchWrite _ _ _ _)
    exact advances_of_same rfl rfl

/-- The buffers filled, and the morphed node written. -/
theorem advances_stagedBack (node : ComputeNode) (pred real : LinkedNode)
    (requests : List ConcurrencyRequest) (completion : BatchCompletion) :
    Advances node
      ((node.staged thread pred real requests).writeBackMorphed source thread target completion).2 := by
  have staged : Advances node (node.staged thread pred real requests) := advances_of_same rfl rfl
  exact staged.trans (advances_writeBackMorphed (node.staged thread pred real requests) completion)

theorem advances_writeBackSplitted (node : ComputeNode) (leftArgument rightArgument : LinkedNodeType)
    (completion : BatchCompletion) :
    Advances node
      (node.writeBackSplitted source thread target leftArgument rightArgument completion).2 := by
  unfold writeBackSplitted
  simp only
  split
  next =>
    apply Advances.trans _ (advances_setDataNode _ _ _)
    apply Advances.trans _ (advances_postBatchWrite _ _ _ _)
    exact advances_of_same rfl rfl
  next =>
    apply Advances.trans _ (advances_postBatchWrite _ _ _ _)
    exact advances_of_same rfl rfl

theorem advances_asyncUpdate (node : ComputeNode) (target : NodeId) (anchor : Str) (type : LinkedNodeType)
    (remote : RemotePointer) (level : Level) :
    Advances node (node.asyncUpdate target anchor type remote level) := by
  obtain ⟨_, created⟩ := SkipList.linkBehind_created node.slist target anchor remote type
  rw [asyncUpdate_eq]
  refine ⟨SkipList.evolves_linkBehind node.slist target anchor type remote, fun entry isEntry => ?_⟩
  change entry ∈ (if level.val = 1 then node.updateQueue else node.updateQueue ++ [⟨level.val, _⟩])
    at isEntry
  split at isEntry
  next => exact Or.inl isEntry
  next =>
    rcases List.mem_append.mp isEntry with isOld | isNew
    · exact Or.inl isOld
    · rw [List.mem_singleton.mp isNew]
      apply Or.inr
      change node.slist.count < (node.slist.linkBehind target anchor type remote).2.count
      rw [created.count]
      exact Nat.lt_succ_self _

/-- The end of a split, once both halves are ready in their slots. -/
theorem advances_publish {before : ComputeNode} (ready : ComputeNode) (staged : Advances before ready)
    (leftType rightType leftArgument rightArgument : LinkedNodeType) (anchor : Str)
    (replies : List (ConcurrencyRequest × Reply)) (draws : PutDraws) :
    Advances before
      (let (r, node) := ready.writeBackSplitted source thread target leftArgument rightArgument draws.batch
        if r = nullptr then (⟨false, replies, node.setType target leftType⟩ : PutOutcome)
        else
          ⟨true, replies, (node.asyncUpdate target anchor rightType r draws.level).setType target
            leftType⟩).node := by
  have written := staged.trans
    (@advances_writeBackSplitted source thread target ready leftArgument rightArgument draws.batch)
  generalize ready.writeBackSplitted source thread target leftArgument rightArgument draws.batch = result
    at written ⊢
  change Advances before (if result.1 = nullptr then _ else _ : PutOutcome).node
  split
  next => exact written.trans (advances_setType _ _ _)
  next =>
    apply (written.trans (advances_asyncUpdate result.2 target anchor rightType result.1 draws.level)).trans
    exact advances_setType _ _ _

variable [Digest]

/-- Whatever a put does between its locks and its release. -/
theorem advances_followPlan (node : ComputeNode) (key value : Str) (draws : PutDraws) (done : Bool)
    (plan : PutPlan) :
    Advances node (node.followPlan source thread target key value draws done plan).node := by
  cases plan with
  | morph =>
      unfold followPlan morphPath
      apply Advances.trans _ (advances_setType _ _ _)
      apply Advances.trans _ (advances_setDataNode _ _ _)
      exact advances_stagedBack _ _ _ _ _
  | eager =>
      unfold followPlan eagerMorph
      simp only
      split
      next => exact advances_stagedBack _ _ _ _ _
      next =>
        apply Advances.trans _ (advances_setType _ _ _)
        apply Advances.trans _ (advances_setDataNode _ _ _)
        apply (advances_stagedBack node _ _ _ draws.batch).trans
        exact advances_of_same rfl rfl
  | split leftCap leftType rightType leftArgument rightArgument =>
      change Advances _ (node.splitPath source thread target key value draws leftCap leftType rightType
        leftArgument rightArgument done).node
      unfold splitPath
      have ready : ∀ left right, Advances node (((node.outOfPlaceSplitNode thread target key value leftCap
          done).2.2.setSlot thread 1 left).setSlot thread 2 right) :=
        fun _ _ => advances_of_same rfl rfl
      generalize node.outOfPlaceSplitNode thread target key value leftCap done = split at ready ⊢
      exact advances_publish _ (ready _ _) leftType rightType leftArgument rightArgument split.1 split.2.1
        draws

theorem advances_tryPut (node : ComputeNode) (key value : Str) (draws : PutDraws) (type : LinkedNodeType) :
    Advances node (node.tryPutToExistingNode thread target key value draws type).2.2 := by
  unfold tryPutToExistingNode
  split
  next =>
    simp only
    split
    next => exact advances_of_same rfl rfl
    next => exact advances_of_same rfl rfl
  next => exact advances_of_same rfl rfl

/-- A put only advances the search layer, and then releases its two locks. -/
theorem putWon_released (node : ComputeNode) (key value : Str) (draws : PutDraws) (type : LinkedNodeType)
    (plan : Nat → PutPlan) :
    ∃ after, (node.putWon source thread target key value draws type plan).node = after.release thread target ∧
      Advances node after := by
  have fetched : Advances node (node.fetchTwo thread target) := advances_of_same rfl rfl
  have tried := fetched.trans
    (@advances_tryPut thread target _ (node.fetchTwo thread target) key value draws type)
  unfold putWon
  simp only
  generalize (node.fetchTwo thread target).tryPutToExistingNode thread target key value draws type = result
    at tried ⊢
  refine ⟨_, rfl, ?_⟩
  split
  next => exact tried
  next => exact tried.trans (advances_followPlan result.2.2 key value draws result.1.1 _)

/-! ### The invariant of the client -/

/-- Between two calls no lock is taken, and every node that is known exists. -/
structure Idle (node : ComputeNode) : Prop where
  closed : node.slist.Closed
  free : ∀ id, (node.slist.nodes id).ctx = none
  queued : ∀ entry ∈ node.updateQueue, entry.newNode < node.slist.count

omit [Digest] in
theorem Idle.congr {before after : ComputeNode} (idle : Idle before) (slist : after.slist = before.slist)
    (queue : after.updateQueue = before.updateQueue) : Idle after := by
  refine ⟨?_, ?_, ?_⟩
  · rw [slist]
    exact idle.closed
  · rw [slist]
    exact idle.free
  · rw [slist, queue]
    exact idle.queued

omit [Digest] in
theorem initialized_idle (source : SegmentSource) (thread : ThreadId) (memory : RemotePointer → LinkedNode)
    (buffers : ThreadId → Nat → LinkedNode) (heap : Fin 2 → LinkedNode) :
    Idle (initialized source thread memory buffers heap) :=
  ⟨SkipList.closed_empty _, fun _ => rfl, fun _ isEntry => nomatch isEntry⟩

omit [Digest] in
theorem Idle.flushIndex (idle : Idle node) (slot : Fin 2) (larger smaller : RemotePointer)
    (draws : FlushDraws) : Idle (node.flushIndex slot larger smaller draws) := by
  have twice : ∀ (first second : RemotePointer) (firstType secondType : LinkedNodeType)
      (firstAnchor secondAnchor : Str) (firstLevel secondLevel : Nat),
      Idle { node with
        slist := (node.slist.insert firstAnchor first firstType firstLevel).insert secondAnchor second
          secondType secondLevel
        remotePut := true } := by
    intros
    refine ⟨(idle.closed.insert _ _ _ _).insert _ _ _ _,
      SkipList.insert_ctx (SkipList.insert_ctx idle.free _ _ _ _) _ _ _ _, fun entry isEntry => ?_⟩
    have known := idle.queued entry isEntry
    rw [SkipList.insert_count, SkipList.insert_count]
    exact (known.trans (Nat.lt_succ_self _)).trans (Nat.lt_succ_self _)
  unfold ComputeNode.flushIndex
  simp only
  split
  next => exact twice _ _ _ _ _ _ _ _
  next => exact twice _ _ _ _ _ _ _ _

theorem Idle.flushTo (idle : Idle node) (slot : Fin 2) (larger smaller : RemotePointer) (key value : Str)
    (draws : FlushDraws) : Idle (node.flushTo thread slot larger smaller key value draws).2 := by
  unfold ComputeNode.flushTo
  simp only
  split
  next =>
    split
    next =>
      apply Idle.flushIndex
      exact idle.congr rfl rfl
    next => exact idle.congr rfl rfl
  next => exact idle.congr rfl rfl

theorem Idle.quickPut (idle : Idle node) (key value : Str) (draws : FlushDraws) :
    Idle (node.quickPut source thread key value draws).2 := by
  unfold ComputeNode.quickPut
  split
  next => exact idle
  next =>
    simp only
    split
    next => exact idle.congr rfl rfl
    next =>
      unfold ComputeNode.flush
      apply Idle.flushTo
      exact idle.congr rfl rfl

/-- A put that has taken the locks of a node and of the one it points back to. -/
structure Locked (before won : ComputeNode) (target : NodeId) : Prop where
  closed : won.slist.Closed
  count : won.slist.count = before.slist.count
  queue : won.updateQueue = before.updateQueue
  others : ∀ id, id ≠ target → id ≠ won.backwardOf target → (won.slist.nodes id).ctx = none

omit [Digest] in
theorem Idle.tryWinForInsert (idle : Idle node) {won : ComputeNode}
    (isWon : node.tryWinForInsert thread target = (true, won)) : Locked node won target := by
  unfold ComputeNode.tryWinForInsert at isWon
  simp only at isWon
  split at isWon
  next =>
    split at isWon
    next =>
      cases isWon
      refine ⟨SkipList.setCtx_closed (SkipList.setCtx_closed idle.closed _ _) _ _, rfl, rfl, fun id notTarget notPred => ?_⟩
      change (((node.slist.setCtx target _).setCtx (((node.slist.setCtx target _).nodes target).backward.getD
        SkipList.head) _).nodes id).ctx = none
      change id ≠ ((((node.slist.setCtx target _).setCtx (((node.slist.setCtx target _).nodes
        target).backward.getD SkipList.head) _).nodes target).backward.getD SkipList.head) at notPred
      rw [SkipList.setCtx_backward, SkipList.setCtx_backward] at notPred
      rw [SkipList.setCtx_backward, SkipList.setCtx_ctx, SkipList.setCtx_ctx, if_neg notPred, if_neg notTarget]
      exact idle.free id
    next => cases isWon
  next => cases isWon

omit [Digest] in
/-- The locks of a put are the only ones, and it releases both. -/
theorem Locked.release {before won after : ComputeNode} (idle : Idle before)
    (locked : Locked before won target) (advances : Advances won after)
    (known : target < before.slist.count) : Idle (after.release thread target) := by
  have kept : after.backwardOf target = won.backwardOf target := by
    unfold backwardOf
    rw [advances.slist.backward target (locked.count ▸ known)]
  refine ⟨SkipList.setCtx_closed (SkipList.setCtx_closed (advances.slist.closed locked.closed) _ _) _ _, ?_, ?_⟩
  · intro id
    change (((after.slist.setCtx target none).setCtx (after.backwardOf target) none).nodes id).ctx = none
    rw [SkipList.setCtx_ctx, SkipList.setCtx_ctx]
    by_cases isPred : id = after.backwardOf target
    · rw [if_pos isPred]
    · by_cases isTarget : id = target
      · rw [if_neg isPred, if_pos isTarget]
      · rw [if_neg isPred, if_neg isTarget]
        rcases advances.slist.ctx id with same | released
        · rw [same]
          exact locked.others id isTarget (kept ▸ isPred)
        · exact released
  · intro entry isEntry
    change entry.newNode < after.slist.count
    rcases advances.queue entry isEntry with isOld | isKnown
    · have older := idle.queued entry (locked.queue ▸ isOld)
      rw [← locked.count] at older
      exact older.trans_le advances.slist.count
    · exact isKnown

theorem Idle.putDispatcher (idle : Idle node) (known : target < node.slist.count) {key value : Str}
    {result : Bool} {after : ComputeNode}
    (returned : node.putDispatcher source thread key value target draws = (.returned result, after)) :
    Idle after := by
  unfold ComputeNode.putDispatcher at returned
  simp only at returned
  split at returned
  next isData =>
    have drained : Idle (node.drainPending thread).2 := idle.congr rfl rfl
    split at returned
    next won isWon =>
      have locked := drained.tryWinForInsert isWon
      obtain ⟨late, released, advances⟩ := @putWon_released source thread target _ won key value draws
        (node.slist.nodes target).type (planOf (node.slist.nodes target).type)
      have isAfter := congrArg Prod.snd returned
      simp only at isAfter
      rw [← isAfter, putFor_eq _ _ _ _ _ _ _ isData, released]
      exact locked.release drained advances known
    next => cases congrArg Prod.fst returned
  next => cases congrArg Prod.fst returned

theorem Idle.remotePutCall (idle : Idle node) {key value : Str} {result : Bool} {after : ComputeNode}
    (returned : node.remotePutCall source thread key value draws = (.returned result, after)) :
    Idle after := by
  unfold ComputeNode.remotePutCall at returned
  split at returned
  next => cases congrArg Prod.fst returned
  next target found => exact idle.putDispatcher (idle.closed.fuzzySearch_lt found) returned

theorem Idle.put (idle : Idle node) {key value : Str} {flush : FlushDraws} {result : Bool}
    {after : ComputeNode}
    (returned : node.put source thread key value flush draws = (.returned result, after)) :
    Idle after := by
  have quick := @Idle.quickPut source node thread _ idle key value flush
  unfold ComputeNode.put at returned
  split at returned
  next => exact idle.remotePutCall returned
  next =>
    split at returned
    next stored isStored =>
      rw [isStored] at quick
      cases returned
      exact quick
    next refused isRefused =>
      rw [isRefused] at quick
      exact quick.remotePutCall returned

/-- What a winner of `try_win_for_update` has fetched, and what it has left alone. -/
structure WonUpdate (before won : ComputeNode) (thread : ThreadId) (target : NodeId) : Prop where
  slist : won.slist = before.slist.setCtx target (some thread)
  updateQueue : won.updateQueue = before.updateQueue
  remotePut : won.remotePut = before.remotePut
  remote : won.remote = before.remote
  requests : (won.contexts thread).requests = []
  fetched : won.buffers thread 0 =
    LinkedNode.overlay (sizeofNode .type16) (before.remote (before.slist.nodes target).dataNode)
      (before.buffers thread 0)
  second : won.buffers thread 1 = before.buffers thread 1

omit [Digest] in
theorem Idle.tryWinForUpdate (idle : Idle node) (thread : ThreadId) (target : NodeId) :
    ∃ won, (node.drainPending thread).2.tryWinForUpdate thread target = (true, won) ∧
      WonUpdate node won thread target := by
  have isFree : (((node.drainPending thread).2.setContextType thread .update).slist.nodes target).ctx = none :=
    idle.free target
  have sameData : ∀ ctx, ((node.slist.setCtx target ctx).nodes target).dataNode =
      (node.slist.nodes target).dataNode := by
    intro ctx
    simp [SkipList.setCtx, SkipList.setNode]
  unfold ComputeNode.tryWinForUpdate
  simp only
  rw [if_pos isFree]
  refine ⟨_, rfl, rfl, rfl, rfl, rfl, ?_, ?_, ?_⟩
  · simp [setMaxDepth, fetchAs, read, setSlot, setCtx, setSlist, setContextType, drainPending, setRequests]
  · simp [setMaxDepth, fetchAs, read, setSlot, setCtx, setSlist, setContextType, drainPending, setRequests,
      sameData]
  · simp [setMaxDepth, fetchAs, read, setSlot, setCtx, setSlist, setContextType, drainPending, setRequests]

/-- What `update` reads into the first slot. -/
def fetched (node : ComputeNode) (thread : ThreadId) (target : NodeId) : LinkedNode :=
  LinkedNode.overlay (sizeofNode .type16) (node.remote (node.slist.nodes target).dataNode)
    (node.buffers thread 0)

/-- `update` on an idle node whose search names a node: what it returns, and what it
writes. -/
theorem update_spec (idle : Idle node) (remotePut : node.remotePut = true) {key : Str}
    (found : node.slist.fuzzySearch key = some target) (value : Str) (completion : Completion) :
    ∃ after, node.update thread key value completion =
        (.returned ((node.fetched thread target).update key value).1, after) ∧
      after.slist = node.slist ∧ after.updateQueue = node.updateQueue ∧ after.remotePut = node.remotePut ∧
      after.remote =
        if completion.performed then
          Function.update node.remote (node.slist.nodes target).dataNode
            (LinkedNode.overlay
              (sizeofNode ((node.fetched thread target).update key value).2.type)
              (node.buffers thread 1) (node.remote (node.slist.nodes target).dataNode))
        else node.remote := by
  obtain ⟨won, isWon, state⟩ := idle.tryWinForUpdate thread target
  have first : won.buffers thread 0 = node.fetched thread target := state.fetched
  have sameData : (won.slist.nodes target).dataNode = (node.slist.nodes target).dataNode := by
    rw [state.slist]
    simp [SkipList.setCtx, SkipList.setNode]
  unfold ComputeNode.update
  rw [if_pos remotePut]
  simp only [found, isWon, state.requests, first, updateOthers, List.foldl_nil]
  refine ⟨_, rfl, ?_, state.updateQueue, state.remotePut, ?_⟩
  · change won.slist.setCtx target none = node.slist
    rw [state.slist, SkipList.setCtx_release (idle.free target)]
  · simp only [setCtx, setMaxDepth, setSlist, writeBackCurrent, write, setSlot, setRequests, state.remote,
      sameData, Function.update_self, Function.update_of_ne (show (1 : Nat) ≠ 0 by decide), state.second]
    rfl

theorem Idle.update (idle : Idle node) (thread : ThreadId) (key value : Str) (completion : Completion) :
    Idle (node.update thread key value completion).2 := by
  by_cases remotePut : node.remotePut = true
  · cases found : node.slist.fuzzySearch key with
    | none =>
        unfold ComputeNode.update
        rw [if_pos remotePut, found]
        exact idle
    | some target =>
        obtain ⟨after, updated, slist, queue, _⟩ := @update_spec node thread target _ idle remotePut key
          found value completion
        rw [updated]
        exact idle.congr slist queue
  · unfold ComputeNode.update
    rw [if_neg remotePut]
    exact idle.congr rfl rfl

theorem Idle.get (idle : Idle node) (thread : ThreadId) (key : Str) : Idle (node.get thread key).2 := by
  unfold ComputeNode.get
  split
  next =>
    simp only
    split
    next => exact idle.congr rfl rfl
    next =>
      split
      next => exact idle.congr rfl rfl
      next => exact idle.congr rfl rfl
  next => exact idle.congr rfl rfl

omit [Digest] in
theorem pollFetchTwoAsync_node {state after : ScanState}
    (polled : state.pollFetchTwoAsync thread = .ok after) : after.node = state.node := by
  unfold ScanState.pollFetchTwoAsync at polled
  split at polled
  next => cases polled
  next => cases polled
  next =>
    cases polled
    rfl

omit [Digest] in
/-- The loop of a scan reads, and changes nothing but its buffers. -/
theorem Idle.scanLoop (key : Str) (count fuel : Nat) (second : NodeId) {state : ScanState}
    (idle : Idle state.node) : Idle (scanLoop thread key count fuel second state).2 := by
  induction fuel generalizing second state with
  | zero => exact idle
  | succ fuel ih =>
      unfold DiStore.Cluster.scanLoop
      split
      next =>
        split
        next => exact idle
        next after polled =>
          rw [← pollFetchTwoAsync_node polled] at idle
          exact idle
      next first isFirst =>
        split
        next => exact idle.congr rfl rfl
        next last isLast =>
          simp only
          split
          next => exact idle.congr rfl rfl
          next after polled =>
            have same := pollFetchTwoAsync_node polled
            have idleAfter : Idle after.node := idle.congr (by rw [same]; rfl) (by rw [same]; rfl)
            split
            next => exact ih last idleAfter
            next => exact idleAfter

omit [Digest] in
theorem Idle.scan (idle : Idle node) (thread : ThreadId) (key : Str) (count : Nat) :
    Idle (node.scan thread key count).2 := by
  unfold ComputeNode.scan
  split
  next => exact idle
  next first isFirst =>
    simp only
    split
    next => exact idle.congr rfl rfl
    next second isSecond =>
      split
      next =>
        apply Idle.scanLoop
        exact idle.congr rfl rfl
      next => exact idle.congr rfl rfl

omit [Digest] in
theorem Idle.calibrateNext (idle : Idle node) : Idle node.calibrateNext := by
  unfold ComputeNode.calibrateNext
  split
  next => exact idle
  next entry rest isQueue =>
    have known := idle.queued entry (isQueue ▸ List.mem_cons_self)
    have same := SkipList.sameNodes_calibrate node.slist entry.newNode entry.level
    refine ⟨idle.closed.calibrate known _, fun id => ?_, fun other isEntry => ?_⟩
    · rw [same.ctx]
      exact idle.free id
    · rw [same.count]
      exact idle.queued other (isQueue ▸ List.mem_cons_of_mem _ isEntry)

theorem ClientStep.idle {before after : ComputeNode} (step : ClientStep source thread before after)
    (idle : Idle before) : Idle after := by
  cases step with
  | put key value flush draws returned => exact idle.put returned
  | get key returned =>
      have kept := idle.get thread key.val
      rw [returned] at kept
      exact kept
  | update key value completion returned =>
      have kept := idle.update thread key.val value.val completion
      rw [returned] at kept
      exact kept
  | scan key count returned =>
      have kept := idle.scan thread key.val count
      rw [returned] at kept
      exact kept
  | calibrate => exact idle.calibrateNext

/-- Every state of a lone client is idle. -/
theorem ClientRun.idle (run : ClientRun source thread node) : Idle node := by
  induction run with
  | initialized main memory buffers heap => exact initialized_idle source main memory buffers heap
  | step before step ih => exact step.idle ih

/-- The state after puts that all return. -/
def putAll (source : SegmentSource) (thread : ThreadId) (flush : FlushDraws) (draws : PutDraws)
    (node : ComputeNode) (records : List (Bytes16 × Bytes16)) : Option ComputeNode :=
  records.foldlM
    (fun node record =>
      match node.put source thread record.1.val record.2.val flush draws with
      | (.returned _, after) => some after
      | _ => none)
    node

/-- What each put keeps holds after all of them. -/
theorem putAll_keeps {Holds : ComputeNode → Prop} {flush : FlushDraws} {records : List (Bytes16 × Bytes16)}
    {after : ComputeNode}
    (step : ∀ (before : ComputeNode) (record : Bytes16 × Bytes16) (result : Bool) (next : ComputeNode),
      Holds before →
        before.put source thread record.1.val record.2.val flush draws = (.returned result, next) → Holds next)
    (start : Holds node) (reached : putAll source thread flush draws node records = some after) :
    Holds after := by
  induction records generalizing node with
  | nil =>
      cases reached
      exact start
  | cons record records ih =>
      unfold ComputeNode.putAll at reached
      rw [List.foldlM_cons, Option.bind_eq_bind, Option.bind_eq_some_iff] at reached
      obtain ⟨next, isNext, later⟩ := reached
      split at isNext
      next result middle isPut =>
        cases isNext
        exact ih (step node record result next start isPut) later
      next => cases isNext

theorem ClientRun.putAll {flush : FlushDraws} {records : List (Bytes16 × Bytes16)} {after : ComputeNode}
    (run : ClientRun source thread node)
    (reached : putAll source thread flush draws node records = some after) :
    ClientRun source thread after :=
  putAll_keeps
    (fun _ record _ _ before returned => before.step (.put record.1 record.2 flush draws returned)) run reached

end DiStore.Cluster.ComputeNode
