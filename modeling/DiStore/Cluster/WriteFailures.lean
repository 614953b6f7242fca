import DiStore.Cluster.PlanCapacity
import DiStore.Cluster.QueueOrder

/-!
Contract: a put whose remote writes may fail.

Owns: the path a put takes in terms of what it finds (`FitsInPlace`, `LeavesAtMost`),
and what a failed batch leaves in the search layer.

Does not own: the images after writes that are done (`Cluster.PutEffects`), and whom a put
tells of success (`Cluster.PutReports`).
-/

set_option autoImplicit false

namespace DiStore.Cluster

open DiStore.Concurrency DiStore.DataLayer DiStore.Memory DiStore.SearchLayer

/-- The pairs a plan's image has room for. -/
def PutPlan.room : PutPlan → Nat
  | .split .. => bufferCapacity
  | _ => 16

theorem planOf_room {type : LinkedNodeType} (isData : type.IsData) (pendings : Nat) :
    type.capacity + 1 < (planOf type pendings).room := by
  cases type with
  | type10 => exact show 11 < 16 by decide
  | type12 =>
      change 13 < (plan12 pendings).room
      unfold plan12
      split <;> decide
  | type14 =>
      change 15 < (plan14 pendings).room
      unfold plan14
      split <;> decide
  | type16 =>
      change 17 < (plan16 pendings).room
      unfold plan16
      split
      next => decide
      next => split <;> decide
  | _ => exact absurd isData id

namespace ComputeNode

/-! ### The path of a put -/

section Conditions

variable [Digest] (node : ComputeNode) (thread : ThreadId) (target : NodeId) (key value : Bytes16)
variable (type : LinkedNodeType)

/-- The records of the queued requests for the put's own node. -/
def hereOffers : List KV :=
  aboveOffers (node.slist.nodes target).anchor (node.contexts thread).requests

/-- The put's own record and every request for its node find room. -/
def FitsInPlace : Prop :=
  LinkedNode.FitsAll type.capacity (⟨key, value⟩ :: node.hereOffers thread target)
    (node.fetchedReal thread target)

/-- The predecessor's image takes another record. -/
def PredRoom : Prop :=
  (node.fetchedPred thread target).next < helpCapacity (node.fetchedPred thread target).type

/-- At most `limit` requests are left over, the put's own record included: in a full node
nothing was stored, otherwise the queue was served up to the first that found no room. -/
def LeavesAtMost (limit : Nat) : Prop :=
  if (node.fetchedReal thread target).next < type.capacity then
    LinkedNode.FitsAll type.capacity
      (⟨key, value⟩ :: aboveOffers (node.slist.nodes target).anchor
        ((node.contexts thread).requests.take ((node.contexts thread).requests.length - limit)))
      (node.fetchedReal thread target)
  else (node.contexts thread).requests.length + 1 ≤ limit

/-- The records of those requests in the order in which they are stored: the first that finds
the node full is served last. -/
def plannedOffers : List KV :=
  if (node.fetchedReal thread target).next < type.capacity then
    LinkedNode.postponed type.capacity (node.hereOffers thread target)
      ((node.fetchedReal thread target).store type.capacity key.val value.val).2
  else node.hereOffers thread target

end Conditions

variable [Digest] {source : SegmentSource} {thread : ThreadId} {target : NodeId}
variable {type : LinkedNodeType} {node : ComputeNode}

/-- What is served before the first write-back is chosen. -/
theorem firstWork_fetched (node : ComputeNode) (key value : Str) (type : LinkedNodeType) :
    (node.fetchTwo thread target).firstWork thread target key value type =
      helpOthers type.capacity (node.slist.nodes target).anchor (node.fetchedPred thread target)
        ((node.fetchedReal thread target).store type.capacity key value).2
        (node.contexts thread).requests := by
  have buffers := node.fetchTwo_buffers thread target
  unfold firstWork
  rw [buffers.1, buffers.2]
  rfl

theorem fitsInPlace_iff (key value : Bytes16) :
    node.FitsInPlace thread target key value type ↔
      (node.fetchedReal thread target).next < type.capacity ∧
        ((node.fetchTwo thread target).firstWork thread target key.val value.val type).requests = [] := by
  rw [firstWork_fetched, helpOthers_empty_iff]
  rfl

/-- The number of pending requests that `try_put_to_existing_node` returns. -/
theorem tryPut_pendings (node : ComputeNode) (key value : Str) (draws : PutDraws) (type : LinkedNodeType) :
    ((node.fetchTwo thread target).tryPutToExistingNode thread target key value draws type).1.2 =
      if (node.fetchedReal thread target).next < type.capacity then
        ((node.fetchTwo thread target).firstWork thread target key value type).requests.length
      else (node.contexts thread).requests.length + 1 := by
  unfold tryPutToExistingNode
  rw [fetched_stored]
  by_cases room : (node.fetchedReal thread target).next < type.capacity
  · rw [if_pos (decide_eq_true room), if_pos room]
    simp only
    split
    next none => exact none.symm
    next => rfl
  · rw [if_neg (by simpa using room), if_neg room]
    rfl

theorem tryPut_pendings_zero_iff (key value : Bytes16) (draws : PutDraws) :
    ((node.fetchTwo thread target).tryPutToExistingNode thread target key.val value.val draws
        type).1.2 = 0 ↔ node.FitsInPlace thread target key value type := by
  rw [tryPut_pendings, fitsInPlace_iff]
  split
  next room => simp [room]
  next full => simp [full]

theorem tryPut_pendings_le_iff (key value : Bytes16) (draws : PutDraws) (limit : Nat) :
    ((node.fetchTwo thread target).tryPutToExistingNode thread target key.val value.val draws
        type).1.2 ≤ limit ↔ node.LeavesAtMost thread target key value type limit := by
  rw [tryPut_pendings]
  unfold LeavesAtMost
  split
  next room =>
    rw [firstWork_fetched, helpOthers_length_le_iff]
    exact (and_iff_right room).symm
  next => exact Iff.rfl

/-- A put that takes everything in place returns true, whatever its write did. -/
theorem putWon_fits (key value : Bytes16) (draws : PutDraws) (plan : Nat → PutPlan)
    (fits : node.FitsInPlace thread target key value type) :
    let outcome := node.putWon source thread target key.val value.val draws type plan
    let work := (node.fetchTwo thread target).firstWork thread target key.val value.val type
    outcome.ret = true ∧ outcome.replies = work.replies := by
  obtain ⟨room, served⟩ := (fitsInPlace_iff key value).mp fits
  have stored := @fetched_stored _ thread target node type
    key.val value.val
  rw [decide_eq_true room] at stored
  unfold putWon tryPutToExistingNode
  simp [stored, served]

/-- Where a put stands when it turns to its plan: nothing is written yet, and either it
has stored nothing, or its own record is stored and some request found no room. -/
structure Deferred (node start : ComputeNode) (thread : ThreadId) (target : NodeId)
    (type : LinkedNodeType) (done : Bool) : Prop where
  slist : start.slist = node.slist
  heap : start.heap = node.heap
  remote : start.remote = node.remote
  posted : start.posted = node.posted
  bounded : (start.buffers thread 1).next ≤ type.capacity
  queue : (start.contexts thread).requests ⊆ (node.contexts thread).requests
  refused : done = false → start = node.fetchTwo thread target
  waiting : done = true → ∃ request ∈ (start.contexts thread).requests,
    ¬ request.tag.val < (node.slist.nodes target).anchor

/-- What the plan goes on to serve, and what was served before, amount to one loop with the
plan's room over the queue in some order. -/
def Resumes (node start : ComputeNode) (thread : ThreadId) (target : NodeId) (key value : Bytes16)
    (type : LinkedNodeType) (done : Bool) (earlier : List (ConcurrencyRequest × Reply)) : Prop :=
  ∀ answer, Truthful answer → ∀ room, type.capacity ≤ room →
    ∃ order : List ConcurrencyRequest, order.Perm (node.contexts thread).requests ∧
      aboveOffers (node.slist.nodes target).anchor order = node.plannedOffers thread target key value type ∧
      let second := serve answer room (node.slist.nodes target).anchor (start.buffers thread 0)
        (if done then start.buffers thread 1
          else ((start.buffers thread 1).store room key.val value.val).2)
        (start.contexts thread).requests
      serve answer room (node.slist.nodes target).anchor (node.fetchedPred thread target)
          ((node.fetchedReal thread target).store room key.val value.val).2 order =
        { second with replies := earlier ++ second.replies }

theorem putWon_deferred (key value : Bytes16) (draws : PutDraws) (plan : Nat → PutPlan)
    (bounded : (node.fetchedReal thread target).next ≤ type.capacity)
    (deferred : ¬ node.FitsInPlace thread target key value type) :
    ∃ start done earlier, Deferred node start thread target type done ∧
      (done = false → earlier = []) ∧
      Resumes node start thread target key value type done earlier ∧
      let pendings := ((node.fetchTwo thread target).tryPutToExistingNode thread target key.val value.val
        draws type).1.2
      let outcome := start.followPlan source thread target key.val value.val draws done (plan pendings)
      pendings = (start.contexts thread).requests.length + (if done then 0 else 1) ∧
      node.putWon source thread target key.val value.val draws type plan =
        ⟨outcome.ret, earlier ++ outcome.replies, outcome.node.release thread target⟩ := by
  have buffers := node.fetchTwo_buffers thread target
  rw [tryPut_pendings]
  by_cases room : (node.fetchedReal thread target).next < type.capacity
  · -- its own record is stored; the queue was served up to one without room
    rw [if_pos room]
    have pending : ((node.fetchTwo thread target).firstWork thread target key.val value.val
        type).requests ≠ [] := fun served => deferred ((fitsInPlace_iff key value).mpr ⟨room, served⟩)
    have isWork := @firstWork_fetched _ thread target node key.val value.val type
    obtain ⟨work, same⟩ : ∃ work,
        (node.fetchTwo thread target).firstWork thread target key.val value.val type = work := ⟨_, rfl⟩
    rw [same] at isWork pending ⊢
    have bounds := LinkedNode.store_next_bounds (node.fetchedReal thread target) type.capacity key.val
      value.val
    have isPred : ((node.fetchTwo thread target).staged thread work.pred work.real
        work.requests).buffers thread 0 = work.pred := by
      simp [staged, setSlot, setRequests]
    have isReal : ((node.fetchTwo thread target).staged thread work.pred work.real
        work.requests).buffers thread 1 = work.real := by
      simp [staged, setSlot, setRequests]
    have isQueue : (((node.fetchTwo thread target).staged thread work.pred work.real
        work.requests).contexts thread).requests = work.requests := by
      simp [staged, setSlot, setRequests]
    refine ⟨(node.fetchTwo thread target).staged thread work.pred work.real work.requests, true,
      work.replies, ⟨rfl, rfl, rfl, rfl, ?_, ?_, ?_, ?_⟩, ?_, ?_, ?_, ?_⟩
    · have grown := @serve_real_next_le _ _ (node.fetchedPred thread target)
        ((node.fetchedReal thread target).store type.capacity key.val value.val).2 type.capacity
        (node.slist.nodes target).anchor (node.contexts thread).requests helpAnswer_truthful
      rw [isReal, isWork]
      exact grown.trans (max_le (by omega) le_rfl)
    · rw [isQueue, isWork]
      obtain ⟨_, _, served⟩ := @serve_served _ _ helpAnswer_truthful type.capacity
        (node.slist.nodes target).anchor (node.fetchedPred thread target)
        ((node.fetchedReal thread target).store type.capacity key.val value.val).2
        (node.contexts thread).requests
      exact served.remaining
    · intro isFalse
      cases isFalse
    · intro _
      rw [isQueue, isWork]
      rw [isWork] at pending
      exact helpOthers_waiting pending
    · intro isFalse
      cases isFalse
    · intro answer truthful larger grows
      obtain ⟨order, perm, offers, whole⟩ := serve_resume grows truthful (node.slist.nodes target).anchor
        (node.fetchedPred thread target)
        ((node.fetchedReal thread target).store type.capacity key.val value.val).2
        (node.contexts thread).requests
      rw [← isWork] at whole
      refine ⟨order, perm, ?_, ?_⟩
      · rw [plannedOffers, if_pos room]
        exact offers
      · rw [isPred, isReal, isQueue, store_larger grows room]
        exact whole
    · rw [isQueue]
      rfl
    · exact putWon_pending key.val value.val draws plan room same pending
  · rw [if_neg room]
    refine ⟨node.fetchTwo thread target, false, [],
      ⟨rfl, rfl, rfl, rfl, ?_, List.Subset.refl _, fun _ => rfl, ?_⟩, fun _ => rfl, ?_, rfl, ?_⟩
    · rw [buffers.2]
      exact bounded
    · intro isTrue
      cases isTrue
    · intro answer truthful larger grows
      refine ⟨_, List.Perm.refl _, ?_, ?_⟩
      · rw [plannedOffers, if_neg room]
        rfl
      · rw [buffers.1, buffers.2]
        rfl
    · exact putWon_full key.val value.val draws plan (not_lt.mp room)

/-! ### The answers of a plan -/

omit [Digest] in
theorem writeBackMorphed_failed (node : ComputeNode) (performed : Nat) :
    (node.writeBackMorphed source thread target (.failed performed)).1 = nullptr := rfl

omit [Digest] in
theorem writeBackSplitted_failed (node : ComputeNode) (leftArgument rightArgument : LinkedNodeType)
    (performed : Nat) :
    (node.writeBackSplitted source thread target leftArgument rightArgument (.failed performed)).1 =
      nullptr := rfl

/-- A put whose batch failed throws. -/
theorem followPlan_failed (node : ComputeNode) (key value : Str) {draws : PutDraws} (done : Bool)
    (plan : PutPlan) {performed : Nat} (failed : draws.batch = .failed performed) :
    (node.followPlan source thread target key value draws done plan).ret = false := by
  cases plan with
  | morph =>
      unfold followPlan morphPath
      rw [failed]
      rfl
  | eager =>
      unfold followPlan eagerMorph
      rw [failed]
      rfl
  | split leftCap leftType rightType leftArgument rightArgument =>
      unfold followPlan splitPath
      rw [failed]
      rfl

/-! ### The search layer after a failed batch -/

/-- The search node and the bottom list are as before, and what was stored in the node
is still found through them. -/
structure SearchLayerKept (before after : ComputeNode) (target : NodeId) : Prop where
  dataNode : (after.slist.nodes target).dataNode = (before.slist.nodes target).dataNode
  type : (after.slist.nodes target).type = (before.slist.nodes target).type
  list : ∀ searchNode, after.slist.forward 0 searchNode = before.slist.forward 0 searchNode
  found : ∀ stored : Bytes16, ((before.imageOf target).find stored.val).isSome →
    ((after.imageOf target).find stored.val).isSome

omit [Digest] in
theorem writeBatch_slist (node : ComputeNode) (thread : ThreadId) (requests : List WorkRequest)
    (performed : Nat) : (node.writeBatch thread requests performed).slist = node.slist := by
  induction requests generalizing node performed with
  | nil => rfl
  | cons request rest ih =>
      unfold writeBatch
      rw [ih]
      rfl

omit [Digest] in
/-- A batch changes no chunk but those it names. -/
theorem writeBatch_remote (node : ComputeNode) (thread : ThreadId) (requests : List WorkRequest)
    (performed : Nat) {address : RemotePointer} (unnamed : ∀ request ∈ requests, address ≠ request.remote) :
    (node.writeBatch thread requests performed).remote address = node.remote address := by
  induction requests generalizing node performed with
  | nil => rfl
  | cons request rest ih =>
      unfold writeBatch
      rw [ih _ _ fun other isMember => unnamed other (List.mem_cons_of_mem _ isMember)]
      unfold write
      simp only
      split
      next => exact Function.update_of_ne (unnamed request List.mem_cons_self) _ _
      next => rfl

omit [Digest] in
/-- A failed `write_back_morphed` leaves the search layer, and every chunk in use but the
predecessor's, as they were. -/
theorem writeBackMorphed_failed_keeps (node : ComputeNode) (thread : ThreadId) (target : NodeId)
    (performed : Nat) (sound : RemoteHeap.Sound source node.heap)
    (isData : (node.buffers thread 1).type.IsData) {address : RemotePointer}
    (taken : ¬ RemoteHeap.Reserve source node.heap address) (apart : address ≠ node.predData target) :
    (node.writeBackMorphed source thread target (.failed performed)).2.slist = node.slist ∧
      (node.writeBackMorphed source thread target (.failed performed)).2.remote address =
        node.remote address := by
  obtain ⟨remote, heap, allocated, _, _, _, free, _⟩ := node.allocate_data thread sound isData
  have differs : address ≠ remote := by
    intro same
    rw [same] at taken
    exact taken free
  unfold writeBackMorphed
  simp only [allocated, postBatchWrite, Bool.false_eq_true, if_false]
  constructor
  · rw [writeBatch_slist]
    rfl
  · rw [writeBatch_remote]
    · rfl
    · intro request isMember
      simp only [List.mem_cons, List.not_mem_nil, or_false] at isMember
      rcases isMember with isPred | isReal
      · rw [isPred]
        exact apart
      · rw [isReal]
        exact differs

/-- `put10` gives its node the null pointer it got back. -/
theorem morphPath_failed (node : ComputeNode) (key value : Str) {draws : PutDraws} (done : Bool)
    {performed : Nat} (failed : draws.batch = .failed performed) :
    ((node.morphPath source thread target key value draws done).node.slist.nodes target).dataNode =
      nullptr := by
  unfold morphPath
  rw [failed]
  simp [setType, setDataNode, setSlist, SkipList.setType, SkipList.setDataNode, SkipList.setNode,
    writeBackMorphed_failed]

/-- A failed split leaves the type of its left half. -/
theorem splitPath_failed (node : ComputeNode) (key value : Str) {draws : PutDraws} (leftCap : Nat)
    (leftType rightType leftArgument rightArgument : LinkedNodeType) (done : Bool)
    {performed : Nat} (failed : draws.batch = .failed performed) :
    ((node.splitPath source thread target key value draws leftCap leftType rightType leftArgument
        rightArgument done).node.slist.nodes target).type = leftType := by
  unfold splitPath
  rw [failed]
  simp [writeBackSplitted_failed, setType, setSlist, SkipList.setType, SkipList.setNode]

/-- A failed `eager_morph` changes no search node and no other chunk in use. -/
theorem eagerMorph_failed (node : ComputeNode) (key value : Str) {draws : PutDraws} (done : Bool)
    {performed : Nat} (failed : draws.batch = .failed performed)
    (sound : RemoteHeap.Sound source node.heap) {address : RemotePointer}
    (taken : ¬ RemoteHeap.Reserve source node.heap address) (apart : address ≠ node.predData target) :
    (node.eagerMorph source thread target key value draws done).node.slist = node.slist ∧
      (node.eagerMorph source thread target key value draws done).node.remote address =
        node.remote address := by
  unfold eagerMorph
  rw [failed]
  simp only [writeBackMorphed_failed, if_true]
  refine writeBackMorphed_failed_keeps (node.staged thread _ _ _) thread target performed sound ?_ taken
    apart
  simp only [staged, setSlot, setRequests, Function.update_self]
  trivial

omit [Digest] in
/-- Which plans move the node eagerly, and that a split changes its type. -/
theorem planOf_cases (isData : type.IsData) (pendings : Nat) :
    (planOf type pendings = .eager ∧
        (type = .type12 ∧ pendings ≤ 4 ∨ type = .type14 ∧ pendings ≤ 2)) ∨
      ¬ (type = .type12 ∧ pendings ≤ 4 ∨ type = .type14 ∧ pendings ≤ 2) ∧
        (planOf type pendings = .morph ∨
          ∃ leftCap leftType rightType leftArgument rightArgument,
            planOf type pendings = .split leftCap leftType rightType leftArgument rightArgument ∧
              leftType ≠ type) := by
  cases type with
  | type10 => exact Or.inr ⟨by simp, Or.inl rfl⟩
  | type12 =>
      by_cases short : pendings ≤ 4
      · exact Or.inl ⟨if_pos short, Or.inl ⟨rfl, short⟩⟩
      · exact Or.inr ⟨by simp [short], Or.inr ⟨_, _, _, _, _, if_neg short, by decide⟩⟩
  | type14 =>
      by_cases short : pendings ≤ 2
      · exact Or.inl ⟨if_pos short, Or.inr ⟨rfl, short⟩⟩
      · exact Or.inr ⟨by simp [short], Or.inr ⟨_, _, _, _, _, if_neg short, by decide⟩⟩
  | type16 =>
      refine Or.inr ⟨by simp, Or.inr ?_⟩
      by_cases shortest : pendings ≤ 2
      · exact ⟨_, _, _, _, _, if_pos shortest, by decide⟩
      · by_cases short : pendings ≤ 4
        · exact ⟨_, _, _, _, _, (if_neg shortest).trans (if_pos short), by decide⟩
        · exact ⟨_, _, _, _, _, (if_neg shortest).trans (if_neg short), by decide⟩
  | _ => exact absurd isData id

/-- The search node of a put, and its two chunks in use. -/
structure InUse (source : SegmentSource) (node : ComputeNode) (target : NodeId) : Prop where
  sound : RemoteHeap.Sound source node.heap
  isData : (node.slist.nodes target).type.IsData
  notNull : (node.slist.nodes target).dataNode ≠ nullptr
  taken : ¬ RemoteHeap.Reserve source node.heap (node.slist.nodes target).dataNode
  apart : (node.slist.nodes target).dataNode ≠ node.predData target

/-- A failed batch makes the put throw, and keeps the search layer exactly when the node
was about to be moved by `eager_morph`. -/
theorem failed_batch_kept_iff (node : ComputeNode) (source : SegmentSource) (thread : ThreadId)
    (target : NodeId) (key value : Bytes16) {draws : PutDraws} {performed : Nat} {type : LinkedNodeType}
    (isType : (node.slist.nodes target).type = type) (inUse : InUse source node target)
    (bounded : (node.fetchedReal thread target).next ≤ type.capacity)
    (deferred : ¬ node.FitsInPlace thread target key value type)
    (failed : draws.batch = .failed performed) :
    ((node.putFor source thread target key.val value.val draws type).ret = false ∧
        SearchLayerKept node (node.putFor source thread target key.val value.val draws type).node target) ↔
      type = .type12 ∧ node.LeavesAtMost thread target key value type 4 ∨
        type = .type14 ∧ node.LeavesAtMost thread target key value type 2 := by
  have isData : type.IsData := isType ▸ inUse.isData
  obtain ⟨start, done, earlier, stands, _, _, _, won⟩ :=
    @putWon_deferred _ source thread target type node key value draws (planOf type) bounded deferred
  have few (limit : Nat) := @tryPut_pendings_le_iff _ thread target type node key value draws limit
  rw [← few 4, ← few 2, node.putFor_eq source thread target key.val value.val draws isData, won]
  generalize ((node.fetchTwo thread target).tryPutToExistingNode thread target key.val value.val draws
    type).1.2 = pendings
  have throws := @followPlan_failed _ source thread target start key.val value.val draws done
    (planOf type pendings) performed failed
  have released := release_moved (start.followPlan source thread target key.val value.val draws done
    (planOf type pendings)).node thread target
  rcases planOf_cases isData pendings with ⟨isEager, within⟩ | ⟨beyond, isMorph | isSplit⟩
  · apply iff_of_true _ within
    have same := @eagerMorph_failed _ source thread target start key.val value.val draws done performed
      failed (by rw [stands.heap]; exact inUse.sound) (node.slist.nodes target).dataNode
      (by rw [stands.heap]; exact inUse.taken)
      (by unfold predData backwardOf; rw [stands.slist]; exact inUse.apart)
    rw [stands.slist, stands.remote] at same
    have kept : (start.followPlan source thread target key.val value.val draws done
          (planOf type pendings)).node.slist = node.slist ∧
        (start.followPlan source thread target key.val value.val draws done
          (planOf type pendings)).node.remote (node.slist.nodes target).dataNode =
            node.remote (node.slist.nodes target).dataNode := by
      rw [isEager]
      exact same
    refine ⟨throws, ?_⟩
    generalize start.followPlan source thread target key.val value.val draws done
      (planOf type pendings) = outcome at kept released ⊢
    rw [kept.1] at released
    have data := released.dataNode target
    have typed := released.type target
    rw [if_pos rfl] at data typed
    have image : (outcome.node.release thread target).imageOf target = node.imageOf target := by
      unfold imageOf
      rw [data]
      exact kept.2
    refine ⟨data, typed, released.forward 0, fun stored present => ?_⟩
    change (((outcome.node.release thread target).imageOf target).find stored.val).isSome
    rw [image]
    exact present
  · apply iff_of_false _ beyond
    rintro ⟨_, kept⟩
    have data := released.dataNode target
    rw [if_pos rfl, isMorph] at data
    have isNull := @morphPath_failed _ source thread target start key.val value.val draws done performed
      failed
    rw [isMorph] at kept
    exact inUse.notNull (kept.dataNode.symm.trans (data.trans isNull))
  · obtain ⟨leftCap, leftType, rightType, leftArgument, rightArgument, isSplit, retagged⟩ := isSplit
    apply iff_of_false _ beyond
    rintro ⟨_, kept⟩
    have typed := released.type target
    rw [if_pos rfl, isSplit] at typed
    have isLeft := @splitPath_failed _ source thread target start key.val value.val draws leftCap leftType
      rightType leftArgument rightArgument done performed failed
    rw [isSplit] at kept
    exact retagged ((isLeft.symm.trans typed.symm).trans (kept.type.trans isType))

end ComputeNode

end DiStore.Cluster

/-! ### Failures on concrete keys -/

namespace DiStore.Cluster.ComputeNode

open DiStore.Concurrency DiStore.DataLayer DiStore.Memory DiStore.SearchLayer

attribute [local instance] Digests.source

/-- The batch fails before it changes anything. -/
def batchFails : PutDraws := ⟨⟨1, level_one⟩, .done, .failed 0⟩

theorem crowded_inUse {type : LinkedNodeType} (isData : type.IsData)
    (isType : ((crowded type 0).slist.nodes 1).type = type) :
    InUse (.memoryNode 0) (crowded type 0) 1 :=
  ⟨RemoteHeap.sound_empty _, isType.symm ▸ isData, (show (1024 : Nat) ≠ 0 by decide),
    crowded_taken type 0 (show 1024 < 4096 by decide), (show (1024 : Nat) ≠ 64 by decide)⟩

/-- A full node of type 12 is moved by `eager_morph`; its batch fails. -/
theorem failed_eager_kept :
    ((crowded .type12 0).putFor (.memoryNode 0) 0 1 (Bytes16.fill 120).val (Bytes16.fill 2).val batchFails
        .type12).ret = false ∧
      SearchLayerKept (crowded .type12 0) ((crowded .type12 0).putFor (.memoryNode 0) 0 1
        (Bytes16.fill 120).val (Bytes16.fill 2).val batchFails .type12).node 1 :=
  (failed_batch_kept_iff _ _ _ _ _ _ rfl (crowded_inUse LinkedNodeType.isData12 rfl) (by decide +kernel)
    (fun fits => absurd fits.1 (by decide +kernel)) rfl).mpr
      (Or.inl ⟨rfl, by unfold LeavesAtMost; decide +kernel⟩)

/-- A full node of type 10 is lost: its search node points to null. -/
theorem failed_morph_loses_node :
    ((crowded .type10 0).slist.nodes 1).dataNode = 1024 ∧
      (((crowded .type10 0).putFor (.memoryNode 0) 0 1 (Bytes16.fill 120).val (Bytes16.fill 2).val
        batchFails .type10).node.slist.nodes 1).dataNode = nullptr ∧
      ¬ SearchLayerKept (crowded .type10 0) ((crowded .type10 0).putFor (.memoryNode 0) 0 1
        (Bytes16.fill 120).val (Bytes16.fill 2).val batchFails .type10).node 1 := by
  have before : ((crowded .type10 0).slist.nodes 1).dataNode = 1024 := by decide +kernel
  have after : (((crowded .type10 0).putFor (.memoryNode 0) 0 1 (Bytes16.fill 120).val
      (Bytes16.fill 2).val batchFails .type10).node.slist.nodes 1).dataNode = nullptr := by
    decide +kernel
  refine ⟨before, after, ?_⟩
  intro kept
  have same := kept.dataNode
  rw [before, after] at same
  exact absurd same (by decide)

end DiStore.Cluster.ComputeNode
