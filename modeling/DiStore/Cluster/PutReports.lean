import DiStore.Cluster.PlanBatches

/-!
Contract: whom a put tells of success, and whether a write-back carries that record.

Owns: the bytes that a put posts of each of its slots, and exactly when every record that is
reported stored lies in a write-back that completed.

Does not own: the images after the writes (`Cluster.HandoverDurable`), and what a failed
batch leaves in the search layer (`Cluster.WriteFailures`).
-/

set_option autoImplicit false

namespace DiStore.Cluster

open DiStore.Concurrency DiStore.DataLayer DiStore.Memory DiStore.SearchLayer

namespace ComputeNode

section Definitions

variable [Digest] (node : ComputeNode) (source : SegmentSource) (thread : ThreadId) (target : NodeId)
variable (key value : Bytes16) (draws : PutDraws) (type : LinkedNodeType)

/-- The pending requests that `try_put_to_existing_node` returns; with none it has called
`write_back_current`. -/
def pendingsOf : Nat :=
  ((node.fetchTwo thread target).tryPutToExistingNode thread target key.val value.val draws type).1.2

/-- How many bytes of a slot the put posts: `write_back_current` posts the second slot, a
batch posts the slots in order. -/
def postedBytes (slot : Nat) : Nat :=
  let sizes := (node.putFor source thread target key.val value.val draws type).postedSizes node
  if node.pendingsOf thread target key value draws type = 0 then
    if slot = 1 then sizes.headD 0 else 0
  else sizes.getD slot 0

/-- A write-back completed that carries a record with the key, from one of the slots. -/
def WrittenBack (slots : List Nat) (held : Bytes16) : Prop :=
  (if node.pendingsOf thread target key value draws type = 0 then draws.write = .done
    else draws.batch = .done) ∧
  ∃ slot ∈ slots, ((node.putFor source thread target key.val value.val draws type).node.buffers thread
    slot).CarriedIn (node.postedBytes source thread target key value draws type slot) held

/-- The put returns true, and a helped request is answered with success, only if the
write-back that carries its record completed. The predecessor is in the first slot, the node
itself in the second, or its halves in the second and third. -/
structure ReportsWritten : Prop where
  own : (node.putFor source thread target key.val value.val draws type).ret = true →
    node.WrittenBack source thread target key value draws type [1, 2] key
  helped : ∀ answered ∈ (node.putFor source thread target key.val value.val draws type).replies,
    answered.2.succeed = true → node.WrittenBack source thread target key value draws type
      (if answered.1.tag.val < (node.slist.nodes target).anchor then [0] else [1, 2]) answered.1.tag

/-- In place: the write completes and no request for the predecessor is taken. Otherwise the
batch completes and has the bytes of all records taken, or it fails and all requests are for a
predecessor that takes none. -/
structure WritesSucceed : Prop where
  inPlace : node.FitsInPlace thread target key value type →
    draws.write = .done ∧ ∀ request ∈ (node.contexts thread).requests,
      request.tag.val < (node.slist.nodes target).anchor → ¬ node.PredRoom thread target
  batch : ¬ node.FitsInPlace thread target key value type →
    draws.batch = .done ∧ node.BatchReaches thread target key value type ∨
      draws.batch ≠ .done ∧ ∀ request ∈ (node.contexts thread).requests,
        request.tag.val < (node.slist.nodes target).anchor ∧ ¬ node.PredRoom thread target

end Definitions

variable [Digest] {source : SegmentSource} {thread : ThreadId} {target : NodeId}
variable {type : LinkedNodeType} {node start : ComputeNode} {key value : Bytes16} {draws : PutDraws}

/-! ### Whether the put returns -/

omit [Digest] in
theorem planOf_arguments (isData : type.IsData) {pendings leftCap : Nat}
    {leftType rightType leftArgument rightArgument : LinkedNodeType}
    (isPlan : planOf type pendings = .split leftCap leftType rightType leftArgument rightArgument) :
    leftArgument.IsData ∧ rightArgument.IsData := by
  cases type with
  | type10 => cases isPlan
  | type12 =>
      change plan12 pendings = _ at isPlan
      unfold plan12 at isPlan
      split at isPlan <;> cases isPlan
      exact ⟨trivial, trivial⟩
  | type14 =>
      change plan14 pendings = _ at isPlan
      unfold plan14 at isPlan
      split at isPlan <;> cases isPlan
      exact ⟨trivial, trivial⟩
  | type16 =>
      change plan16 pendings = _ at isPlan
      unfold plan16 at isPlan
      split at isPlan
      next =>
        cases isPlan
        exact ⟨trivial, trivial⟩
      next =>
        split at isPlan <;> cases isPlan
        all_goals exact ⟨trivial, trivial⟩
  | _ => exact absurd isData id

omit [Digest] in
theorem writeBackMorphed_notNull (sound : RemoteHeap.Sound source node.heap) (pred : LinkedNode)
    {real : LinkedNode} (isData : real.type.IsData) (requests : List ConcurrencyRequest) :
    ((node.staged thread pred real requests).writeBackMorphed source thread target .done).1 ≠ nullptr := by
  have isReal : (node.staged thread pred real requests).buffers thread 1 = real := by
    simp [staged, setSlot, setRequests]
  obtain ⟨remote, heap, allocated, _, notNull, _⟩ :=
    (node.staged thread pred real requests).allocate_data thread sound isData
  change ((node.staged thread pred real requests).allocate source thread
    (sizeofNode ((node.staged thread pred real requests).buffers thread 1).type)).1 ≠ nullptr
  rw [isReal, allocated]
  exact notNull

omit [Digest] in
theorem writeBackSplitted_notNull (sound : RemoteHeap.Sound source node.heap)
    {leftArgument rightArgument : LinkedNodeType} (leftData : leftArgument.IsData)
    (rightData : rightArgument.IsData) :
    (node.writeBackSplitted source thread target leftArgument rightArgument .done).1 ≠ nullptr := by
  obtain ⟨l, heap, allocatedLeft, soundLeft, _⟩ := node.allocate_data thread sound leftData
  obtain ⟨r, _, allocatedRight, _, notNull, _⟩ := allocate_data
    { node with heap := heap, allocations := (l, sizeofNode leftArgument) :: node.allocations } thread
    soundLeft rightData
  change ((node.allocate source thread (sizeofNode leftArgument)).2.allocate source thread
    (sizeofNode rightArgument)).1 ≠ nullptr
  rw [allocatedLeft, allocatedRight]
  exact notNull

/-- With its batch done a put returns true: the chunks it has allocated are not null. -/
theorem followPlan_returns (sound : RemoteHeap.Sound source start.heap) (key value : Str)
    (isDone : draws.batch = .done) (done : Bool) {plan : PutPlan}
    (arguments : ∀ leftCap leftType rightType leftArgument rightArgument,
      plan = .split leftCap leftType rightType leftArgument rightArgument →
        leftArgument.IsData ∧ rightArgument.IsData) :
    (start.followPlan source thread target key value draws done plan).ret = true := by
  cases plan with
  | morph =>
      obtain ⟨work, isWork⟩ : ∃ work, start.morphWork thread target key value done = work := ⟨_, rfl⟩
      have notNull := @writeBackMorphed_notNull source thread target start sound work.pred
        (sealedAs (morphNode work.real) work.real) (morphNode_isData _) work.requests
      unfold followPlan morphPath
      rw [isDone, isWork]
      exact decide_eq_true notNull
  | eager =>
      obtain ⟨work, isWork⟩ : ∃ work, start.eagerWork thread target key value done = work := ⟨_, rfl⟩
      have notNull := @writeBackMorphed_notNull source thread target start sound work.pred
        (sealedAs .type16 work.real) LinkedNodeType.isData16 work.requests
      unfold followPlan eagerMorph
      rw [isDone, isWork]
      simp only [if_neg notNull]
  | split leftCap leftType rightType leftArgument rightArgument =>
      obtain ⟨leftData, rightData⟩ := arguments _ _ _ _ _ rfl
      obtain ⟨halves, isHalves⟩ : ∃ halves, start.outOfPlaceSplitNode thread target key value leftCap done =
        halves := ⟨_, rfl⟩
      obtain ⟨staged, isStaged⟩ : ∃ staged, (halves.2.2.setSlot thread 1 (sealedAs leftType
        (halves.2.2.buffers thread 1))).setSlot thread 2 (sealedAs rightType ((halves.2.2.setSlot thread 1
          (sealedAs leftType (halves.2.2.buffers thread 1))).buffers thread 2)) = staged := ⟨_, rfl⟩
      have sameHeap : staged.heap = start.heap := by
        rw [← isStaged, ← isHalves]
        rfl
      have notNull := @writeBackSplitted_notNull source thread target staged (sameHeap ▸ sound) _ _ leftData
        rightData
      unfold followPlan splitPath
      rw [isDone]
      simp only [isHalves, isStaged, if_neg notNull]

/-! ### In place -/

/-- What `write_back_current` posts, whatever becomes of it. -/
theorem putWon_fits_posts (draws : PutDraws) (plan : Nat → PutPlan)
    (fits : node.FitsInPlace thread target key value type) :
    let outcome := node.putWon source thread target key.val value.val draws type plan
    outcome.postedSizes node = [sizeofNode type] ∧ outcome.node.buffers thread 1 =
      ((node.fetchTwo thread target).firstWork thread target key.val value.val type).real := by
  obtain ⟨room, served⟩ := (fitsInPlace_iff key value).mp fits
  have stored := @fetched_stored _ thread target node type key.val value.val
  rw [decide_eq_true room] at stored
  obtain ⟨work, isWork⟩ : ∃ work, (node.fetchTwo thread target).firstWork thread target key.val value.val type =
    work := ⟨_, rfl⟩
  rw [isWork] at served ⊢
  have outcome : node.putWon source thread target key.val value.val draws type plan =
      ⟨true, work.replies, (((node.fetchTwo thread target).staged thread work.pred work.real []).write thread
        (node.slist.nodes target).dataNode (sizeofNode type) 1 draws.write).release thread target⟩ := by
    have sameSlist : ∀ (pred real : LinkedNode),
        ((node.fetchTwo thread target).staged thread pred real []).slist = node.slist := fun _ _ => rfl
    unfold putWon tryPutToExistingNode
    simp [stored, isWork, served, writeBackCurrent, sameSlist]
  rw [outcome]
  constructor
  · exact @postedSizes_eq _ _ [((node.slist.nodes target).dataNode, sizeofNode type)] _ rfl rfl
  · change ((node.fetchTwo thread target).staged thread work.pred work.real []).buffers thread 1 = _
    simp [staged, setSlot, setRequests]

/-- What is told to others on the path in place, and what the write carries. -/
theorem inPlace_carries_iff (draws : PutDraws) (isData : type.IsData)
    (fits : node.FitsInPlace thread target key value type) (slots : List Nat) (held : Bytes16) :
    node.WrittenBack source thread target key value draws type slots held ↔
      draws.write = .done ∧ 1 ∈ slots ∧ ((node.fetchTwo thread target).firstWork thread target key.val value.val
        type).real.CarriedIn (sizeofNode type) held := by
  have none : node.pendingsOf thread target key value draws type = 0 := (tryPut_pendings_zero_iff key value draws).mpr
    fits
  obtain ⟨sizes, buffer⟩ := @putWon_fits_posts _ source thread target type node key value draws (planOf type) fits
  rw [← node.putFor_eq source thread target key.val value.val draws isData] at sizes buffer
  have bytes : ∀ slot, node.postedBytes source thread target key value draws type slot =
      if slot = 1 then sizeofNode type else 0 := by
    intro slot
    unfold postedBytes
    rw [if_pos none, sizes]
    rfl
  unfold WrittenBack
  rw [if_pos none]
  apply and_congr_right
  intro _
  constructor
  · rintro ⟨slot, inSlots, carried⟩
    rw [bytes slot] at carried
    by_cases isSecond : slot = 1
    · rw [if_pos isSecond, isSecond, buffer] at carried
      exact ⟨isSecond ▸ inSlots, carried⟩
    · rw [if_neg isSecond] at carried
      exact absurd carried (not_carriedIn_zero _ held)
  · rintro ⟨inSlots, carried⟩
    refine ⟨1, inSlots, ?_⟩
    rw [bytes 1, if_pos rfl, buffer]
    exact carried

/-- The node itself has the bytes of every record it was told to have. -/
theorem inPlace_own_carried (isData : type.IsData) (fits : node.FitsInPlace thread target key value type) {pair : KV}
    (isTold : pair = ⟨key, value⟩ ∨ ∃ answered ∈ ((node.fetchTwo thread target).firstWork thread target key.val
        value.val type).replies, answered.2.succeed = true ∧
      ¬ answered.1.tag.val < (node.slist.nodes target).anchor ∧ offerOf answered.1 = pair) :
    ((node.fetchTwo thread target).firstWork thread target key.val value.val type).real.CarriedIn
      (sizeofNode type) pair.key := by
  rw [firstWork_fetched] at isTold ⊢
  have isReal := serve_real helpAnswer_truthful type.capacity (node.slist.nodes target).anchor
    (node.fetchedPred thread target) ((node.fetchedReal thread target).store type.capacity key.val value.val).2
    (node.contexts thread).requests
  have isTaken : pair ∈ LinkedNode.taken type.capacity (⟨key, value⟩ :: node.hereOffers thread target)
      (node.fetchedReal thread target) := by
    rw [LinkedNode.taken, if_pos fits.1, List.mem_cons]
    exact isTold.imp_right (mem_taken_iff helpAnswer_truthful).mpr
  obtain ⟨index, bound, isMatch⟩ := LinkedNode.matchesAt_of_taken isTaken
  rw [LinkedNode.storeAll_cons] at bound isMatch
  unfold helpOthers
  rw [isReal]
  apply (LinkedNode.carriedIn_sizeofNode_iff isData).mpr
  refine ⟨index, bound, isMatch, bound.trans_le ?_⟩
  exact LinkedNode.storeAll_next_le (LinkedNode.store_next_le fits.1.le _ _) _

/-! ### Who is told of success -/

/-- On the path to a plan a record is written back if the batch is done and has its bytes. -/
theorem deferred_carries_iff (draws : PutDraws) (isData : type.IsData)
    (overfull : ¬ node.FitsInPlace thread target key value type) (slots : List Nat) (held : Bytes16) :
    node.WrittenBack source thread target key value draws type slots held ↔
      draws.batch = .done ∧ BatchCarries (node.putWon source thread target key.val value.val draws type (planOf type))
        node thread slots held := by
  have some : node.pendingsOf thread target key value draws type ≠ 0 :=
    mt (tryPut_pendings_zero_iff key value draws).mp overfull
  have bytes : ∀ slot, node.postedBytes source thread target key value draws type slot =
      ((node.putWon source thread target key.val value.val draws type (planOf type)).postedSizes node).getD slot
        0 := by
    intro slot
    unfold postedBytes
    rw [if_neg some, node.putFor_eq source thread target key.val value.val draws isData]
  unfold WrittenBack BatchCarries
  rw [if_neg some, node.putFor_eq source thread target key.val value.val draws isData]
  simp only [bytes]

/-- A put that turns to its plan tells somebody of success, unless every request is for a
predecessor that takes none. -/
theorem deferred_acknowledges_iff {done : Bool} (deferred : Deferred node start thread target type done) (plan : PutPlan)
    (room : type.capacity + 1 < plan.room) :
    (∃ answered ∈ (start.planWork thread target key value done plan).replies, answered.2.succeed = true) ↔
      ∃ request ∈ (node.contexts thread).requests,
        request.tag.val < (node.slist.nodes target).anchor → node.PredRoom thread target := by
  have bounds := LinkedNode.store_next_bounds (start.buffers thread 1) plan.room key.val value.val
  have small := deferred.bounded
  have isRoom : (if done then start.buffers thread 1
      else ((start.buffers thread 1).store plan.room key.val value.val).2).next < plan.room := by
    split <;> omega
  unfold planWork
  rw [serve_acknowledges_iff (answerOf_truthful plan) isRoom, deferred.slist]
  cases done with
  | false =>
      rw [deferred.refused rfl, (node.fetchTwo_buffers thread target).1]
      exact Iff.rfl
  | true =>
      obtain ⟨request, isMember, above⟩ := deferred.waiting rfl
      apply iff_of_true
      · exact ⟨request, isMember, fun below => absurd below above⟩
      · exact ⟨request, deferred.queue isMember, fun below => absurd below above⟩

/-- Success is reported for records of completed write-backs only, exactly when the writes
succeed with the bytes of all that was taken, or nobody is told anything. -/
theorem reports_written_iff (node : ComputeNode) (source : SegmentSource) (thread : ThreadId)
    (target : NodeId) (key value : Bytes16) (draws : PutDraws) {type : LinkedNodeType}
    (isData : type.IsData) (bounded : (node.fetchedReal thread target).next ≤ type.capacity)
    (sound : RemoteHeap.Sound source node.heap) :
    node.ReportsWritten source thread target key value draws type ↔
      node.WritesSucceed thread target key value draws type := by
  have isPut := node.putFor_eq source thread target key.val value.val draws isData
  have path := @tryPut_pendings_zero_iff _ thread target type node key value draws
  by_cases fits : node.FitsInPlace thread target key value type
  · obtain ⟨returns, replies⟩ := @putWon_fits _ source thread target type node key value draws (planOf type) fits
    have written := fun slots held =>
      @inPlace_carries_iff _ source thread target type node key value draws isData fits slots held
    have own := fun pair => @inPlace_own_carried _ thread target type node key value isData fits pair
    rw [← isPut] at returns replies
    have served := ((fitsInPlace_iff key value).mp fits).2
    have sameWork := @firstWork_fetched _ thread target node key.val value.val type
    rw [sameWork] at served
    have taken := serve_acknowledges_below_iff served
    constructor
    · intro reports
      refine ⟨fun _ => ⟨((written _ _).mp (reports.own returns)).1, ?_⟩, fun deferred => absurd fits deferred⟩
      intro request isMember below room
      obtain ⟨answered, inReplies, succeed, isBelow⟩ := taken.mpr ⟨request, isMember, below, room⟩
      have inSecond := reports.helped answered (by rw [replies, sameWork]; exact inReplies) succeed
      rw [if_pos isBelow] at inSecond
      exact absurd ((written _ _).mp inSecond).2.1 (by decide)
    · intro succeeds
      obtain ⟨isDone, noneTaken⟩ := succeeds.inPlace fits
      refine ⟨fun _ => (written _ _).mpr ⟨isDone, by decide, own ⟨key, value⟩ (.inl rfl)⟩, ?_⟩
      intro answered inReplies succeed
      rw [replies] at inReplies
      by_cases below : answered.1.tag.val < (node.slist.nodes target).anchor
      · rw [sameWork] at inReplies
        obtain ⟨request, isMember, isBelow, room⟩ := taken.mp ⟨answered, inReplies, succeed, below⟩
        exact absurd room (noneTaken request isMember isBelow)
      · rw [if_neg below]
        exact (written _ _).mpr ⟨isDone, by decide,
          own (offerOf answered.1) (.inr ⟨answered, inReplies, succeed, below, rfl⟩)⟩
  · obtain ⟨start, done, earlier, deferred, noEarlier, resumes, isPendings, won⟩ :=
      @putWon_deferred _ source thread target type node key value draws (planOf type) bounded fits
    have few := fun limit => @tryPut_pendings_le_iff _ thread target type node key value draws limit
    have written := fun slots held =>
      @deferred_carries_iff _ source thread target type node key value draws isData fits slots held
    rw [isPendings] at won few
    obtain ⟨plan, isPlan⟩ : ∃ plan, planOf type ((start.contexts thread).requests.length +
      (if done then 0 else 1)) = plan := ⟨_, rfl⟩
    have isOutcome : node.putWon source thread target key.val value.val draws type (planOf type) =
        planned source start thread target key value draws done earlier plan := isPlan ▸ won
    have isReplies : (planned source start thread target key value draws done earlier plan).replies =
        earlier ++ (start.planWork thread target key value done plan).replies :=
      congrArg (earlier ++ ·) (followPlan_replies start (deferred.bounded.trans (capacity_le_sixteen type)) key
        value draws done plan)
    rw [isOutcome] at isPut written
    cases isBatch : draws.batch with
    | done =>
        have reaches := @plan_reports_iff _ source thread target type node start key value draws done earlier bounded
          deferred resumes isBatch isData fits few
        rw [isPlan] at reaches
        have returns : (planned source start thread target key value draws done earlier plan).ret = true := by
          apply followPlan_returns (deferred.heap ▸ sound) key.val value.val isBatch done
          rintro leftCap leftType rightType leftArgument rightArgument rfl
          exact planOf_arguments isData isPlan
        constructor
        · rintro ⟨own, helped⟩
          rw [isPut] at own helped
          refine ⟨fun inPlace => absurd inPlace fits, fun _ => .inl ⟨isBatch, reaches.mp ⟨?_, ?_⟩⟩⟩
          · exact ((written _ _).mp (own returns)).2
          · exact fun answered isReply succeed => ((written _ _).mp (helped answered isReply succeed)).2
        · intro succeeds
          obtain ⟨_, isReached⟩ := (succeeds.batch fits).resolve_right fun failed => failed.1 isBatch
          obtain ⟨own, helped⟩ := reaches.mpr isReached
          constructor
          · exact fun _ => (written _ _).mpr ⟨isBatch, own⟩
          · rw [isPut]
            exact fun answered isReply succeed => (written _ _).mpr ⟨isBatch, helped answered isReply succeed⟩
    | failed performed =>
        have notDone : draws.batch ≠ .done := by
          rw [isBatch]
          nofun
        have room := planOf_room isData ((start.contexts thread).requests.length + (if done then 0 else 1))
        rw [isPlan] at room
        have told := @deferred_acknowledges_iff _ thread target type node start key value done deferred plan room
        constructor
        · rintro ⟨_, helped⟩
          refine ⟨fun inPlace => absurd inPlace fits, fun _ => .inr ⟨notDone, ?_⟩⟩
          by_contra someone
          obtain ⟨answered, inReplies, succeed⟩ := told.mpr (by
            simpa only [not_forall, not_and, not_not, exists_prop] using someone)
          have inAll : answered ∈ (node.putFor source thread target key.val value.val draws type).replies := by
            rw [isPut, isReplies]
            exact List.mem_append_right _ inReplies
          exact notDone ((written _ _).mp (helped answered inAll succeed)).1
        · intro succeeds
          obtain ⟨_, noOne⟩ := (succeeds.batch fits).resolve_left fun completed => notDone completed.1
          have noReply := mt told.mp (by
            rintro ⟨request, isMember, takes⟩
            exact (noOne request isMember).2 (takes (noOne request isMember).1))
          have notStored : done = false := by
            cases isDone : done with
            | false => rfl
            | true =>
                obtain ⟨request, isMember, above⟩ := deferred.waiting isDone
                exact absurd (noOne request (deferred.queue isMember)).1 above
          constructor
          · intro returns
            have throws := @followPlan_failed _ source thread target start key.val value.val draws done plan
              performed isBatch
            rw [isPut] at returns
            exact absurd (throws.symm.trans returns) Bool.false_ne_true
          · intro answered inReplies succeed
            rw [isPut, isReplies, noEarlier notStored] at inReplies
            exact absurd ⟨answered, inReplies, succeed⟩ noReply

end ComputeNode

end DiStore.Cluster

/-! ### Reports on concrete keys -/

namespace DiStore.Cluster.ComputeNode

open DiStore.Concurrency DiStore.DataLayer DiStore.Memory DiStore.SearchLayer

attribute [local instance] Digests.source

/-- The write in place fails before it changes anything. -/
def writeFails : PutDraws := ⟨⟨1, level_one⟩, .failed false, .done⟩

/-- One search node with an empty data node of type 10. -/
def vacant : ComputeNode :=
  { crowded .type10 0 with
    remote := fun remote => if remote = 1024 then LinkedNode.fresh .type10 .zeroed else .zeroed }

/-- A full node of type 16 with one request beside the put, and a batch that is done. -/
theorem put16_reports_written :
    (crowded .type16 1).ReportsWritten (.memoryNode 0) 0 1 (.fill 120) (.fill 2) writesDone .type16 := by
  refine (reports_written_iff _ _ _ _ _ _ _ LinkedNodeType.isData16 (by decide +kernel)
    (RemoteHeap.sound_empty _)).mpr ⟨?_, ?_⟩
  · intro fits
    exact absurd fits.1 (by decide +kernel)
  · exact fun _ => .inl ⟨rfl, nofun, nofun, nofun⟩

/-- `put` returns true although its write failed and its record is nowhere in the node. -/
theorem failed_write_reported :
    (vacant.putFor (.memoryNode 0) 0 1 (Bytes16.fill 120).val (Bytes16.fill 2).val writeFails
        .type10).ret = true ∧
      ((vacant.putFor (.memoryNode 0) 0 1 (Bytes16.fill 120).val (Bytes16.fill 2).val writeFails
        .type10).node.imageOf 1).find (Bytes16.fill 120).val = none ∧
      ¬ vacant.ReportsWritten (.memoryNode 0) 0 1 (.fill 120) (.fill 2) writeFails .type10 := by
  have returns : (vacant.putFor (.memoryNode 0) 0 1 (Bytes16.fill 120).val (Bytes16.fill 2).val writeFails
      .type10).ret = true := by decide +kernel
  refine ⟨returns, by decide +kernel, ?_⟩
  intro reports
  have completed := (reports.own returns).1
  have inPlace : vacant.pendingsOf 0 1 (.fill 120) (.fill 2) writeFails .type10 = 0 := by decide +kernel
  rw [if_pos inPlace] at completed
  cases completed

end DiStore.Cluster.ComputeNode
