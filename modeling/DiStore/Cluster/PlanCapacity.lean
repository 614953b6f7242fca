import DiStore.Cluster.PutEffects
import DiStore.Common.Digests

/-!
Contract: the plans of `put12`, `put14` and `put16` on a full node.

Owns: the sizes and tags that each plan gives its resulting nodes, when they agree,
and that the resulting images together hold the old records and the new ones.

Does not own: requests for the predecessor, and the loop of `put10`, which reads its
type off the fingerprints.
-/

set_option autoImplicit false

namespace DiStore.Cluster.ComputeNode

open DiStore.Concurrency DiStore.DataLayer DiStore.Memory DiStore.SearchLayer

/-- The entries a log gained; logs grow at the front. -/
def gained {α : Type} (before after : List α) : List α := after.take (after.length - before.length)

@[simp] theorem gained_append {α : Type} (new before : List α) : gained before (new ++ before) = new := by
  simp [gained]

/-- The search nodes whose images a put wrote anew: its node and those it created. -/
def resulting (before after : ComputeNode) (target : NodeId) : List NodeId :=
  target :: List.range' before.slist.count (after.slist.count - before.slist.count)

/-- The image a search node points to. -/
def imageOf (node : ComputeNode) (searchNode : NodeId) : LinkedNode :=
  node.remote (node.slist.nodes searchNode).dataNode

/-- The records fit the type, and the chunk was asked for and written with its size. -/
structure WellPlanned (before after : ComputeNode) (searchNode : NodeId) : Prop where
  tag : (after.imageOf searchNode).type = (after.slist.nodes searchNode).type
  fits : (after.imageOf searchNode).next ≤ (after.slist.nodes searchNode).type.capacity
  allocated : ∀ size,
    ((after.slist.nodes searchNode).dataNode, size) ∈ gained before.allocations after.allocations ↔
      size = sizeofNode (after.slist.nodes searchNode).type
  written : ∀ size,
    ((after.slist.nodes searchNode).dataNode, size) ∈ gained before.posted after.posted ↔
      size = sizeofNode (after.slist.nodes searchNode).type

variable [Digest]

/-- A node as full as its type allows, with one record for each of its keys. -/
structure FullNode (node : LinkedNode) (type : LinkedNodeType) : Prop where
  full : node.next = type.capacity
  distinct : node.DistinctKeys
  marked : node.Fingerprinted

omit [Digest] in
/-- The put returns, every resulting node is as planned, and together they hold the old
records and the new ones. -/
structure KeepsPlan (before : ComputeNode) (target : NodeId) (offers : List KV) (outcome : PutOutcome) :
    Prop where
  returns : outcome.ret = true
  planned : ∀ searchNode ∈ resulting before outcome.node target,
    WellPlanned before outcome.node searchNode
  records : ((resulting before outcome.node target).flatMap fun searchNode =>
      (outcome.node.imageOf searchNode).records).Perm
    ((before.imageOf target).records ++
      LinkedNode.newRecords ((before.imageOf target).records.map KV.key) offers)

/-- What a winner knows of the state: chunks are handed out once, and its two search
nodes exist. -/
structure Holding (source : SegmentSource) (node : ComputeNode) (target : NodeId) : Prop where
  sound : RemoteHeap.Sound source node.heap
  predTaken : ¬ RemoteHeap.Reserve source node.heap (node.predData target)
  known : target < node.slist.count

variable {source : SegmentSource} {node : ComputeNode} {thread : ThreadId} {target : NodeId}
variable {key value : Bytes16} {draws : PutDraws} {type : LinkedNodeType}

omit [Digest] in
/-- The fetch covers every record of a node that fits its type. -/
theorem fetchedReal_entries (isData : (node.slist.nodes target).type.IsData)
    (fits : (node.imageOf target).next ≤ (node.slist.nodes target).type.capacity) :
    (node.fetchedReal thread target).entries = (node.imageOf target).entries := by
  apply LinkedNode.entries_overlay
  have covered := pairsOffset_le_sizeofNode isData
  unfold imageOf at fits
  omega

theorem fingerprinted_of_entries {left right : LinkedNode} (same : left.entries = right.entries)
    (marked : right.Fingerprinted) : left.Fingerprinted := by
  rw [LinkedNode.fingerprinted_iff_entries] at marked ⊢
  rw [same]
  exact marked

omit [Digest] in
theorem next_of_entries {left right : LinkedNode} (same : left.entries = right.entries) :
    left.next = right.next := (LinkedNode.slots_of_entries same).1

omit [Digest] in
theorem records_of_entries {left right : LinkedNode} (same : left.entries = right.entries) :
    left.records = right.records := by
  rw [← LinkedNode.entries_map_snd, same, LinkedNode.entries_map_snd]

/-- The offers of a put: its own record and those of its queue. -/
def offersOf (node : ComputeNode) (thread : ThreadId) (key value : Bytes16) : List KV :=
  ⟨key, value⟩ :: (node.contexts thread).requests.map offerOf

/-- `eager_morph` stores the put's own record and the whole queue. -/
theorem eagerWork_all (key value : Bytes16)
    (here : ∀ request ∈ (node.contexts thread).requests,
      ¬ request.tag.val < (node.slist.nodes target).anchor)
    (room : (node.fetchedReal thread target).next + (offersOf node thread key value).length ≤ 16) :
    (node.fetchTwo thread target).eagerWork thread target key.val value.val false =
      ⟨node.fetchedPred thread target,
        (node.fetchedReal thread target).storeAll 16 (offersOf node thread key value), [],
        (node.contexts thread).requests.map fun request => (request, ⟨true, false⟩)⟩ := by
  have bounds := LinkedNode.store_next_bounds (node.fetchedReal thread target) 16 key.val value.val
  rw [offersOf, List.length_cons, List.length_map] at room
  rw [fetchTwo_eq]
  unfold eagerWork
  simp only [Function.update_self]
  exact serve_all rfl here (by simp; omega)

/-- So does the split, on its stack node. -/
theorem splitWork_all (key value : Bytes16)
    (here : ∀ request ∈ (node.contexts thread).requests,
      ¬ request.tag.val < (node.slist.nodes target).anchor)
    (room : (node.fetchedReal thread target).next + (offersOf node thread key value).length ≤
      bufferCapacity) :
    (node.fetchTwo thread target).splitWork thread target key.val value.val false =
      ⟨node.fetchedPred thread target,
        (bufferNode (node.fetchedReal thread target)).storeAll bufferCapacity
          (offersOf node thread key value), [],
        (node.contexts thread).requests.map fun request => (request, ⟨true, false⟩)⟩ := by
  have bounds := LinkedNode.store_next_bounds (bufferNode (node.fetchedReal thread target))
    bufferCapacity key.val value.val
  have sameNext : (bufferNode (node.fetchedReal thread target)).next =
      (node.fetchedReal thread target).next := rfl
  rw [offersOf, List.length_cons, List.length_map] at room
  rw [fetchTwo_eq]
  unfold splitWork
  simp only [Function.update_self]
  exact serve_all rfl here (by simp; omega)

omit [Digest] in
/-- A chunk written once, with the size that was asked for. -/
theorem logged_iff {before : List (RemotePointer × Nat)} (new : List (RemotePointer × Nat))
    {remote : RemotePointer} {size : Nat} (isNew : (remote, size) ∈ new)
    (once : ∀ entry ∈ new, entry.1 = remote → entry.2 = size) (asked : Nat) :
    (remote, asked) ∈ gained before (new ++ before) ↔ asked = size := by
  rw [gained_append]
  constructor
  · intro isMember
    exact once _ isMember rfl
  · intro same
    rw [same]
    exact isNew

/-- What a winner fetches of a full node. -/
theorem FullNode.fetched (full : FullNode (node.imageOf target) type) (thread : ThreadId)
    (isData : type.IsData) (isType : (node.slist.nodes target).type = type) :
    (node.fetchedReal thread target).entries = (node.imageOf target).entries ∧
      (node.fetchedReal thread target).next = type.capacity := by
  have entries : (node.fetchedReal thread target).entries = (node.imageOf target).entries := by
    apply fetchedReal_entries
    · rw [isType]
      exact isData
    · rw [isType]
      exact full.full.le
  exact ⟨entries, (next_of_entries entries).trans full.full⟩

/-- Moving a full node to a larger chunk. -/
theorem keeps_eager (holding : Holding source node target) {plan : Nat → PutPlan}
    (isData : type.IsData) (isType : (node.slist.nodes target).type = type)
    (full : FullNode (node.imageOf target) type)
    (here : ∀ request ∈ (node.contexts thread).requests,
      ¬ request.tag.val < (node.slist.nodes target).anchor)
    (isDone : draws.batch = .done)
    (isPlan : plan ((node.contexts thread).requests.length + 1) = .eager)
    (room : type.capacity + (offersOf node thread key value).length ≤ 16) :
    KeepsPlan node target (offersOf node thread key value)
      (node.putWon source thread target key.val value.val draws type plan) := by
  obtain ⟨fetched, next⟩ := full.fetched thread isData isType
  rw [putWon_full key.val value.val draws plan next.ge, isPlan]
  obtain ⟨remote, after, moved, rewritten⟩ := eagerMorph_done (node.fetchTwo thread target)
    thread target key.val value.val false holding.sound holding.predTaken isDone
    (eagerWork_all key value here (by rw [next]; exact room))
  simp only [followPlan, moved]
  have bounds := LinkedNode.storeAll_next_bounds (offersOf node thread key value)
    (node.fetchedReal thread target) 16
  have whole := rewritten.moved.release thread
  have sameCount : (after.release thread target).slist.count = node.slist.count := whole.count
  have isNode : ((after.release thread target).slist.nodes target).dataNode = remote := by
    rw [whole.dataNode, if_pos rfl]
  have isTag : ((after.release thread target).slist.nodes target).type = .type16 := by
    rw [whole.type, if_pos rfl]
    rfl
  have image : (after.release thread target).imageOf target = LinkedNode.overlay (sizeofNode .type16)
      (sealedAs .type16 ((node.fetchedReal thread target).storeAll 16 (offersOf node thread key value)))
      (node.remote remote) := by
    rw [imageOf, isNode]
    change after.remote remote = _
    rw [rewritten.memory, Function.update_self]
    rfl
  have only : resulting node (after.release thread target) target = [target] := by
    rw [resulting, sameCount, Nat.sub_self, List.range'_zero]
  have big : sizeofNode .type16 = 560 := rfl
  have stored : ((node.fetchedReal thread target).storeAll 16
      (offersOf node thread key value)).next ≤ 16 := by omega
  refine ⟨rfl, ?_, ?_⟩
  · intro searchNode isMember
    rw [only, List.mem_singleton] at isMember
    subst isMember
    refine ⟨?_, ?_, ?_, ?_⟩
    · rw [image, isTag, LinkedNode.overlay_type (by rw [big]; decide)]
      rfl
    · rw [image, isTag, LinkedNode.overlay_next (by rw [big]; decide)]
      exact stored
    · intro size
      rw [isNode, isTag]
      change _ ∈ gained _ after.allocations ↔ _
      rw [rewritten.allocations]
      exact logged_iff [(remote, _)] List.mem_cons_self
        (fun entry isMember _ => by rw [List.mem_singleton.mp isMember]) size
    · intro size
      rw [isNode, isTag]
      change _ ∈ gained _ after.posted ↔ _
      rw [rewritten.posted]
      refine logged_iff [(remote, _), (_, _)] List.mem_cons_self ?_ size
      intro entry isMember same
      rcases List.mem_cons.mp isMember with isNew | isPred
      · rw [isNew]
      · rw [List.mem_singleton.mp isPred] at same
        exact absurd same.symm rewritten.apart
  · rw [only, List.flatMap_singleton, image, LinkedNode.records_overlay]
    · change ((node.fetchedReal thread target).storeAll 16 _).records.Perm _
      rw [LinkedNode.records_storeAll _ (fingerprinted_of_entries fetched full.marked)
        (by rw [next]; exact room), records_of_entries fetched]
    · change pairsOffset + 32 * ((node.fetchedReal thread target).storeAll 16 _).next ≤ _
      rw [big, pairsOffset]
      omega

/-- Everything about a full node that is split. -/
theorem full_split (key value : Bytes16) (holding : Holding source node target) {plan : Nat → PutPlan}
    (isData : type.IsData) (isType : (node.slist.nodes target).type = type)
    (full : FullNode (node.imageOf target) type)
    (here : ∀ request ∈ (node.contexts thread).requests,
      ¬ request.tag.val < (node.slist.nodes target).anchor)
    (isDone : draws.batch = .done) {leftCap : Nat}
    {leftType rightType leftArgument rightArgument : LinkedNodeType}
    (leftData : leftArgument.IsData) (rightData : rightArgument.IsData)
    (isPlan : plan ((node.contexts thread).requests.length + 1) =
      .split leftCap leftType rightType leftArgument rightArgument)
    (small : leftCap < type.capacity)
    (room : type.capacity + (offersOf node thread key value).length ≤ bufferCapacity) :
    ∃ buffer picked left right anchor l r after,
      node.putWon source thread target key.val value.val draws type plan =
        ⟨true, (node.contexts thread).requests.map fun request => (request, ⟨true, false⟩),
          after.release thread target⟩ ∧
      SplitInTwo source (node.fetchTwo thread target) thread target (node.fetchedPred thread target)
        (sealedAs leftType left) (sealedAs rightType right) anchor leftArgument rightArgument []
        draws.level l r after ∧
      Halved buffer leftCap picked left right anchor ∧
      buffer.records = (node.imageOf target).records ++
        LinkedNode.newRecords ((node.imageOf target).records.map KV.key)
          (offersOf node thread key value) ∧
      type.capacity ≤ buffer.next ∧
      buffer.next ≤ type.capacity + (offersOf node thread key value).length := by
  obtain ⟨fetched, next⟩ := full.fetched thread isData isType
  have copied : (bufferNode (node.fetchedReal thread target)).entries = (node.imageOf target).entries := by
    rw [bufferNode_entries (by rw [next]; exact capacity_le_sixteen type)]
    exact fetched
  have copiedNext : (bufferNode (node.fetchedReal thread target)).next = type.capacity :=
    (next_of_entries copied).trans full.full
  obtain ⟨buffer, isBuffer⟩ : ∃ buffer, (bufferNode (node.fetchedReal thread target)).storeAll
    bufferCapacity (offersOf node thread key value) = buffer := ⟨_, rfl⟩
  have bounds := LinkedNode.storeAll_next_bounds (offersOf node thread key value)
    (bufferNode (node.fetchedReal thread target)) bufferCapacity
  rw [isBuffer, copiedNext] at bounds
  have work := splitWork_all key value here (by rw [next]; exact room)
  rw [isBuffer] at work
  obtain ⟨picked, halved, _, _⟩ := splitBuffer_spec buffer
    ((node.fetchTwo thread target).buffers thread 1) ((node.fetchTwo thread target).buffers thread 2)
    (show leftCap < buffer.next by omega)
  obtain ⟨l, r, after, returned, split⟩ := splitPath_done (node.fetchTwo thread target) thread
    target key.val value.val leftCap leftType rightType false holding.sound
    holding.predTaken leftData rightData holding.known.ne isDone work rfl
  refine ⟨buffer, picked, _, _, _, l, r, after, ?_, split, halved, ?_, bounds.1, bounds.2⟩
  · rw [putWon_full key.val value.val draws plan next.ge, isPlan]
    simp only [followPlan, returned]
  · rw [← isBuffer, LinkedNode.records_storeAll _ (fingerprinted_of_entries copied full.marked)
      (by rw [copiedNext]; exact room), records_of_entries copied]

omit [Digest] in
/-- Both chunks of a split are asked for and written once, with the template arguments. -/
theorem SplitInTwo.logs {before after : ComputeNode} {pred left right : LinkedNode} {anchor : Str}
    {leftArgument rightArgument : LinkedNodeType} {requests : List ConcurrencyRequest} {level : Level}
    {l r : RemotePointer}
    (split : SplitInTwo source before thread target pred left right anchor leftArgument rightArgument
      requests level l r after) :
    (∀ size, (l, size) ∈ gained before.allocations after.allocations ↔ size = sizeofNode leftArgument) ∧
      (∀ size, (r, size) ∈ gained before.allocations after.allocations ↔
        size = sizeofNode rightArgument) ∧
      (∀ size, (l, size) ∈ gained before.posted after.posted ↔ size = sizeofNode leftArgument) ∧
      ∀ size, (r, size) ∈ gained before.posted after.posted ↔ size = sizeofNode rightArgument := by
  have differ := split.differ
  have leftApart := split.leftApart
  have rightApart := split.rightApart
  rw [split.allocations, split.posted]
  refine ⟨fun size => ?_, fun size => ?_, fun size => ?_, fun size => ?_⟩
  · apply logged_iff [(r, _), (l, _)]
    · simp
    · simp [differ.symm]
  · apply logged_iff [(r, _), (l, _)]
    · simp
    · simp [differ]
  · apply logged_iff [(r, _), (l, _), (_, _)]
    · simp
    · simp [differ.symm, leftApart.symm]
  · apply logged_iff [(r, _), (l, _), (_, _)]
    · simp
    · simp [differ, rightApart.symm]

/-- A split whose halves fit their tags, with the template arguments of those tags. -/
theorem keeps_split (holding : Holding source node target) {plan : Nat → PutPlan}
    (isData : type.IsData) (isType : (node.slist.nodes target).type = type)
    (full : FullNode (node.imageOf target) type)
    (here : ∀ request ∈ (node.contexts thread).requests,
      ¬ request.tag.val < (node.slist.nodes target).anchor)
    (isDone : draws.batch = .done) {leftCap : Nat} {leftType rightType : LinkedNodeType}
    (leftData : leftType.IsData) (rightData : rightType.IsData)
    (isPlan : plan ((node.contexts thread).requests.length + 1) =
      .split leftCap leftType rightType leftType rightType)
    (small : leftCap < type.capacity) (leftFits : leftCap ≤ leftType.capacity)
    (rightFits : type.capacity + (offersOf node thread key value).length - leftCap ≤ rightType.capacity)
    (room : type.capacity + (offersOf node thread key value).length ≤ bufferCapacity) :
    KeepsPlan node target (offersOf node thread key value)
      (node.putWon source thread target key.val value.val draws type plan) := by
  obtain ⟨buffer, picked, left, right, anchor, l, r, after, returned, split, halved, records, low, high⟩ :=
    full_split key value holding isData isType full here isDone leftData rightData
      isPlan small room
  rw [returned]
  have nodes : SplitNodes node.slist (after.release thread target).slist target anchor l r leftType
      rightType := split.released holding.known.ne
  have leftNext := halved.left_next
  have rightNext := halved.right_next
  have leftCovered : pairsOffset + 32 * left.next ≤ sizeofNode leftType := by
    have covered := pairsOffset_le_sizeofNode leftData
    omega
  have rightCovered : pairsOffset + 32 * right.next ≤ sizeofNode rightType := by
    have covered := pairsOffset_le_sizeofNode rightData
    omega
  have leftImage : (after.release thread target).imageOf target =
      LinkedNode.overlay (sizeofNode leftType) { sealedAs leftType left with rlink := r } (node.remote l) := by
    rw [imageOf, nodes.left.1]
    change after.remote l = _
    rw [split.memory, Function.update_of_ne split.differ, Function.update_self]
    rfl
  have rightImage : (after.release thread target).imageOf node.slist.count =
      LinkedNode.overlay (sizeofNode rightType)
        { sealedAs rightType right with rlink := left.rlink } (node.remote r) := by
    rw [imageOf, nodes.right.1]
    change after.remote r = _
    rw [split.memory, Function.update_self]
    rfl
  have leftRecords : ((after.release thread target).imageOf target).records = left.records := by
    rw [leftImage]
    exact LinkedNode.records_overlay leftCovered
  have rightRecords : ((after.release thread target).imageOf node.slist.count).records =
      right.records := by
    rw [rightImage]
    exact LinkedNode.records_overlay rightCovered
  have both : resulting node (after.release thread target) target = [target, node.slist.count] := by
    have oneMore : (after.release thread target).slist.count - node.slist.count = 1 := by
      rw [nodes.count]
      exact Nat.add_sub_cancel_left _ 1
    rw [resulting, oneMore]
    rfl
  obtain ⟨asked, askedRight, posted, postedRight⟩ := split.logs
  refine ⟨rfl, ?_, ?_⟩
  · intro searchNode isMember
    change searchNode ∈ resulting node (after.release thread target) target at isMember
    rw [both] at isMember
    simp only [List.mem_cons, List.not_mem_nil, or_false] at isMember
    rcases isMember with isTarget | isNew
    · rw [isTarget]
      refine ⟨?_, ?_, ?_, ?_⟩
      · rw [leftImage, nodes.left.2, LinkedNode.overlay_type (sizeofNode_ne_zero leftData)]
        rfl
      · rw [leftImage, nodes.left.2, LinkedNode.overlay_next (sizeofNode_ne_zero leftData)]
        exact leftNext.le.trans leftFits
      · rw [nodes.left.1, nodes.left.2]
        exact asked
      · rw [nodes.left.1, nodes.left.2]
        exact posted
    · rw [isNew]
      refine ⟨?_, ?_, ?_, ?_⟩
      · rw [rightImage, nodes.right.2.1, LinkedNode.overlay_type (sizeofNode_ne_zero rightData)]
        rfl
      · rw [rightImage, nodes.right.2.1, LinkedNode.overlay_next (sizeofNode_ne_zero rightData)]
        exact rightNext.le.trans (by omega)
      · rw [nodes.right.1, nodes.right.2.1]
        exact askedRight
      · rw [nodes.right.1, nodes.right.2.1]
        exact postedRight
  · change (List.flatMap (fun searchNode => ((after.release thread target).imageOf searchNode).records)
      (resulting node (after.release thread target) target)).Perm _
    rw [both, List.flatMap_cons, List.flatMap_singleton, leftRecords, rightRecords, ← records]
    exact halved.records_perm

/-- A split whose right half is written with another size than its tag's. -/
theorem breaks_split (holding : Holding source node target) {plan : Nat → PutPlan}
    (isData : type.IsData) (isType : (node.slist.nodes target).type = type)
    (full : FullNode (node.imageOf target) type)
    (here : ∀ request ∈ (node.contexts thread).requests,
      ¬ request.tag.val < (node.slist.nodes target).anchor)
    (isDone : draws.batch = .done) {leftCap : Nat}
    {leftType rightType leftArgument rightArgument : LinkedNodeType}
    (leftData : leftArgument.IsData) (rightData : rightArgument.IsData)
    (isPlan : plan ((node.contexts thread).requests.length + 1) =
      .split leftCap leftType rightType leftArgument rightArgument)
    (small : leftCap < type.capacity)
    (room : type.capacity + (offersOf node thread key value).length ≤ bufferCapacity)
    (differ : sizeofNode rightArgument ≠ sizeofNode rightType) :
    ¬ KeepsPlan node target (offersOf node thread key value)
      (node.putWon source thread target key.val value.val draws type plan) := by
  obtain ⟨buffer, picked, left, right, anchor, l, r, after, returned, split, _⟩ :=
    full_split key value holding isData isType full here isDone leftData rightData
      isPlan small room
  rw [returned]
  intro keeps
  have nodes : SplitNodes node.slist (after.release thread target).slist target anchor l r leftType
      rightType := split.released holding.known.ne
  have isResulting : node.slist.count ∈ resulting node (after.release thread target) target := by
    have oneMore : (after.release thread target).slist.count - node.slist.count = 1 := by
      rw [nodes.count]
      exact Nat.add_sub_cancel_left _ 1
    rw [resulting, oneMore]
    exact List.mem_cons_of_mem _ (List.mem_singleton.mpr rfl)
  have asked := (keeps.planned _ isResulting).allocated (sizeofNode rightType)
  rw [nodes.right.1, nodes.right.2.1] at asked
  have isArgument := (split.logs.2.1 (sizeofNode rightType)).mp (asked.mpr rfl)
  exact differ isArgument.symm

/-! ### The three plans -/

section Plans

variable (key value : Bytes16) (holding : Holding source node target)
  (here : ∀ request ∈ (node.contexts thread).requests,
    ¬ request.tag.val < (node.slist.nodes target).anchor)
  (few : (node.contexts thread).requests.length ≤ 4) (isDone : draws.batch = .done)

include holding here few isDone

theorem put12_keeps_plan (isType : (node.slist.nodes target).type = .type12)
    (full : FullNode (node.imageOf target) .type12) :
    KeepsPlan node target (offersOf node thread key value)
      (node.put12 source thread target key.val value.val draws) := by
  have offers : (offersOf node thread key value).length = (node.contexts thread).requests.length + 1 := by
    rw [offersOf, List.length_cons, List.length_map]
  have big : LinkedNodeType.type12.capacity = 12 := rfl
  have ten : LinkedNodeType.type10.capacity = 10 := rfl
  have buffer : bufferCapacity = 21 := rfl
  by_cases short : (node.contexts thread).requests.length + 1 ≤ 4
  · apply keeps_eager holding LinkedNodeType.isData12 isType full here isDone (if_pos short)
    omega
  · apply keeps_split holding LinkedNodeType.isData12 isType full here isDone LinkedNodeType.isData10
      LinkedNodeType.isData10 (if_neg short)
    all_goals omega

theorem put14_keeps_plan_iff (isType : (node.slist.nodes target).type = .type14)
    (full : FullNode (node.imageOf target) .type14) :
    KeepsPlan node target (offersOf node thread key value)
        (node.put14 source thread target key.val value.val draws) ↔
      (node.contexts thread).requests.length < 2 := by
  have offers : (offersOf node thread key value).length = (node.contexts thread).requests.length + 1 := by
    rw [offersOf, List.length_cons, List.length_map]
  have big : LinkedNodeType.type14.capacity = 14 := rfl
  have buffer : bufferCapacity = 21 := rfl
  by_cases short : (node.contexts thread).requests.length + 1 ≤ 2
  · apply iff_of_true
    · apply keeps_eager holding LinkedNodeType.isData14 isType full here isDone (if_pos short)
      omega
    · omega
  · apply iff_of_false
    · apply breaks_split holding LinkedNodeType.isData14 isType full here isDone LinkedNodeType.isData10
        LinkedNodeType.isData10 (if_neg short)
      · omega
      · omega
      · decide
    · omega

theorem put16_keeps_plan (isType : (node.slist.nodes target).type = .type16)
    (full : FullNode (node.imageOf target) .type16) :
    KeepsPlan node target (offersOf node thread key value)
      (node.put16 source thread target key.val value.val draws) := by
  have offers : (offersOf node thread key value).length = (node.contexts thread).requests.length + 1 := by
    rw [offersOf, List.length_cons, List.length_map]
  have big : LinkedNodeType.type16.capacity = 16 := rfl
  have ten : LinkedNodeType.type10.capacity = 10 := rfl
  have twelve : LinkedNodeType.type12.capacity = 12 := rfl
  have buffer : bufferCapacity = 21 := rfl
  by_cases shortest : (node.contexts thread).requests.length + 1 ≤ 2
  · apply keeps_split holding LinkedNodeType.isData16 isType full here isDone LinkedNodeType.isData10
      LinkedNodeType.isData10 (if_pos shortest)
    all_goals omega
  · by_cases short : (node.contexts thread).requests.length + 1 ≤ 4
    · apply keeps_split holding LinkedNodeType.isData16 isType full here isDone LinkedNodeType.isData10
        LinkedNodeType.isData12
        ((if_neg shortest).trans (if_pos short))
      all_goals omega
    · apply keeps_split holding LinkedNodeType.isData16 isType full here isDone LinkedNodeType.isData12
        LinkedNodeType.isData12
        ((if_neg shortest).trans (if_neg short))
      all_goals omega

end Plans

/-- On a full node of type 12, 14 or 16 with at most four further requests, the plan is
kept on every branch but the split of `put14`. -/
theorem plan_kept_iff (key value : Bytes16) (holding : Holding source node target)
    (large : type = .type12 ∨ type = .type14 ∨ type = .type16)
    (isType : (node.slist.nodes target).type = type) (full : FullNode (node.imageOf target) type)
    (few : (node.contexts thread).requests.length ≤ 4)
    (here : ∀ request ∈ (node.contexts thread).requests,
      ¬ request.tag.val < (node.slist.nodes target).anchor)
    (isDone : draws.batch = .done) :
    KeepsPlan node target (offersOf node thread key value)
        (node.putFor source thread target key.val value.val draws type) ↔
      ¬ (type = .type14 ∧ 2 ≤ (node.contexts thread).requests.length) := by
  rcases large with is12 | is14 | is16
  · subst is12
    have keeps := put12_keeps_plan key value holding here few isDone isType full
    apply iff_of_true keeps
    intro both
    cases both.1
  · subst is14
    have exact14 := put14_keeps_plan_iff key value holding here few isDone isType full
    change KeepsPlan node target _ (node.put14 source thread target key.val value.val draws) ↔ _
    rw [exact14]
    simp
  · subst is16
    have keeps := put16_keeps_plan key value holding here few isDone isType full
    apply iff_of_true keeps
    intro both
    cases both.1

end DiStore.Cluster.ComputeNode

/-! ### Full nodes with concrete keys -/

namespace DiStore.Cluster.ComputeNode

open DiStore.Concurrency DiStore.DataLayer DiStore.Memory DiStore.SearchLayer

attribute [local instance] Digests.source

/-- Records with keys of equal bytes, from `first` on. -/
def byteOffers (first count : Nat) : List KV :=
  (List.range count).map fun index => ⟨.fill (UInt8.ofNat (first + index)), .fill 1⟩

/-- One search node with a full data node of `type`, and `pending` requests for it. -/
def crowded (type : LinkedNodeType) (pending : Nat) : ComputeNode :=
  { initialized (.memoryNode 0) 0 (fun _ => .zeroed) (fun _ _ => .zeroed) (fun _ => .zeroed) with
    slist := (SkipList.empty 64).insert (Bytes16.fill 97).val 1024 type 1
    heap := .empty
    remote := fun remote =>
      if remote = 1024 then
        (LinkedNode.fresh type .zeroed).storeAll type.capacity (byteOffers 97 type.capacity)
      else .zeroed
    contexts := fun _ =>
      { ConcurrencyContext.initial with
        requests := (byteOffers 200 pending).map fun pair => ⟨1, pair.key, pair.value⟩ }
    remotePut := true }

def writesDone : PutDraws := ⟨⟨1, level_one⟩, .done, .done⟩

/-- No chunk below the segments is in reserve. -/
theorem crowded_taken (type : LinkedNodeType) (pending : Nat) {address : Nat}
    (low : address < memoryPageSize) :
    ¬ RemoteHeap.Reserve (.memoryNode 0) (crowded type pending).heap address := by
  rintro (⟨segment, isCurrent, _⟩ | ⟨thread, group, isGroup, _⟩ | ⟨index, _, start, _⟩)
  · cases isCurrent
  · cases isGroup
  · change 0 + memoryPageSize + index * segmentSize ≤ address at start
    omega

theorem crowded_holding (type : LinkedNodeType) (pending : Nat) :
    Holding (.memoryNode 0) (crowded type pending) 1 :=
  ⟨RemoteHeap.sound_empty _, crowded_taken type pending (show 64 < 4096 by decide), Nat.one_lt_two⟩

theorem crowded_full16 : FullNode ((crowded .type16 1).imageOf 1) .type16 :=
  ⟨by decide +kernel, by decide +kernel, by decide +kernel⟩

/-- A full node of type 16 with one request beside the put. -/
theorem put16_plan_kept :
    KeepsPlan (crowded .type16 1) 1 (offersOf (crowded .type16 1) 0 (.fill 120) (.fill 2))
      ((crowded .type16 1).putFor (.memoryNode 0) 0 1 (Bytes16.fill 120).val (Bytes16.fill 2).val
        writesDone .type16) :=
  (plan_kept_iff _ _ (crowded_holding .type16 1) (Or.inr (Or.inr rfl)) rfl crowded_full16
    (by decide) (by decide +kernel) rfl).mpr (fun both => by cases both.1)

/-- A full node of type 14 with two requests beside the put: the right half is tagged 12
and allocated and written as a node of type 10. -/
theorem put14_plan_broken :
    FullNode ((crowded .type14 2).imageOf 1) .type14 ∧
      ((crowded .type14 2).contexts 0).requests.length = 2 ∧
      ¬ KeepsPlan (crowded .type14 2) 1 (offersOf (crowded .type14 2) 0 (.fill 120) (.fill 2))
        ((crowded .type14 2).putFor (.memoryNode 0) 0 1 (Bytes16.fill 120).val (Bytes16.fill 2).val
          writesDone .type14) := by
  have full : FullNode ((crowded .type14 2).imageOf 1) .type14 :=
    ⟨by decide +kernel, by decide +kernel, by decide +kernel⟩
  refine ⟨full, rfl, ?_⟩
  intro keeps
  have few := (put14_keeps_plan_iff (.fill 120) (.fill 2) (crowded_holding .type14 2)
    (by decide +kernel) (by decide) rfl rfl full).mp keeps
  exact absurd few (by decide)

end DiStore.Cluster.ComputeNode
