import DiStore.Cluster.SplitRace
import DiStore.Cluster.StoreMap

/-!
Contract: what the checksum of a data node covers, over whole runs of one client.

Owns: the images that are sealed and then grow in place (`SealedThen`), the runs with the image that
each node was sealed with last and the records it got in place since (`ComputeNode.SealRun`), and
exactly when a `get` of such a node returns.

The flush, a morph and a split seal what they write. A put into a node with room writes the node
back with its record, and with the checksum that it was fetched with.

Does not own: `update`, which seals the wrong slot (`Cluster.RemoteUpdate`).
-/

set_option autoImplicit false

namespace DiStore.Cluster

open DiStore.Concurrency DiStore.DataLayer DiStore.Library DiStore.Memory DiStore.SearchLayer
open DiStore.Cluster.SplitRace (Accepted)

variable [Digest]

/-! ### Images -/

/-- What became of a node since it was sealed last: its image in remote memory then, and the records
that were stored in place after that. -/
structure SealedNode where
  base : LinkedNode
  added : List KV

/-- The image that the two make. -/
def SealedNode.image (history : SealedNode) : LinkedNode := LinkedNode.appendAll history.added history.base

section Images

variable {type : LinkedNodeType} {history : SealedNode} {image buffer : LinkedNode}

/-- A record appended to a fetched node and written back is appended to the image. -/
theorem overlay_append (isData : type.IsData) (room : image.next < type.capacity) (pair : KV) :
    LinkedNode.overlay (sizeofNode type)
        (LinkedNode.append (LinkedNode.overlay (sizeofNode type) image buffer) pair.key.val pair.value.val) image =
      image.append pair.key.val pair.value.val := by
  have nonempty := sizeofNode_ne_zero isData
  have covers := pairsOffset_le_sizeofNode isData
  have pairs : (LinkedNode.overlay (sizeofNode type) (LinkedNode.append
      (LinkedNode.overlay (sizeofNode type) image buffer) pair.key.val pair.value.val) image).pairs =
        (image.append pair.key.val pair.value.val).pairs := by
    funext index
    have sameNext : (LinkedNode.overlay (sizeofNode type) image buffer).next = image.next :=
      LinkedNode.overlay_next nonempty
    by_cases isNew : index = image.next
    · rw [LinkedNode.overlay_pairs_of_le (by rw [isNew]; omega), isNew, LinkedNode.append_pairs_next]
      rw [← sameNext]
      exact LinkedNode.append_pairs_next
    · -- the other pairs go out as they came in
      rw [LinkedNode.overlay_pairs nonempty, LinkedNode.append_pairs_of_ne _ _ (by rw [sameNext]; exact isNew),
        LinkedNode.append_pairs_of_ne _ _ isNew, LinkedNode.overlay_pairs nonempty, LinkedNode.KV.overlay_overlay]
      have whole := congrArg (fun node => node.pairs index) (LinkedNode.overlay_self (sizeofNode type) image)
      simp only [LinkedNode.overlay_pairs nonempty] at whole
      exact whole
  have header : LinkedNode.overlay (sizeofNode type) (LinkedNode.append
      (LinkedNode.overlay (sizeofNode type) image buffer) pair.key.val pair.value.val) image =
        { image.append pair.key.val pair.value.val with
          pairs := (LinkedNode.overlay (sizeofNode type) (LinkedNode.append
            (LinkedNode.overlay (sizeofNode type) image buffer) pair.key.val pair.value.val) image).pairs } := by
    simp [LinkedNode.overlay, LinkedNode.append, nonempty]
  rw [header, pairs]

/-- A record stored in a fetched node and written back is stored in the image. -/
theorem overlay_store (isData : type.IsData) (room : image.next < type.capacity) (pair : KV) :
    LinkedNode.overlay (sizeofNode type)
        (LinkedNode.store (LinkedNode.overlay (sizeofNode type) image buffer) type.capacity pair.key.val
          pair.value.val).2 image =
      (image.store type.capacity pair.key.val pair.value.val).2 := by
  have covers := pairsOffset_le_sizeofNode isData
  have sameNext : (LinkedNode.overlay (sizeofNode type) image buffer).next = image.next :=
    LinkedNode.overlay_next (sizeofNode_ne_zero isData)
  have sameFind : (LinkedNode.overlay (sizeofNode type) image buffer).find pair.key.val =
      image.find pair.key.val := LinkedNode.find_overlay (by omega) pair.key
  unfold LinkedNode.store
  rw [sameNext, sameFind, if_pos room, if_pos room]
  split
  next =>
    change LinkedNode.overlay _ (LinkedNode.overlay _ image buffer) image = image
    rw [LinkedNode.overlay_overlay, LinkedNode.overlay_self]
  next => exact overlay_append isData room pair

/-- The checksum of the image is that of the pairs it was sealed with. Only the link to the next node
is written by others. -/
def SealedThen (type : LinkedNodeType) (history : SealedNode) (image : LinkedNode) : Prop :=
  image.type = type ∧ Accepted type history.base ∧ ∃ link, image = { history.image with rlink := link }

/-- An image that has just been sealed. -/
theorem SealedThen.anew (accepted : Accepted type image) (isType : image.type = type) :
    SealedThen type ⟨image, []⟩ image := ⟨isType, accepted, image.rlink, rfl⟩

namespace SealedThen

variable (sealedThen : SealedThen type history image)

include sealedThen

theorem relinked (link : RemotePointer) : SealedThen type history { image with rlink := link } := by
  obtain ⟨isType, accepted, _, isImage⟩ := sealedThen
  refine ⟨isType, accepted, link, ?_⟩
  rw [isImage]

/-- A record that the image does not have is stored in place. -/
theorem store (room : image.next < type.capacity) (pair : KV) :
    SealedThen type
      { history with
        added := if (image.find pair.key.val).isSome then history.added else history.added ++ [pair] }
      (image.store type.capacity pair.key.val pair.value.val).2 := by
  unfold LinkedNode.store
  rw [if_pos room]
  split
  next => exact sealedThen
  next =>
    obtain ⟨isType, accepted, link, isImage⟩ := sealedThen
    refine ⟨isType, accepted, link, ?_⟩
    unfold SealedNode.image at isImage ⊢
    simp only
    rw [← LinkedNode.appendAll_append, isImage]
    rfl

theorem records : image.records = history.base.records ++ history.added := by
  obtain ⟨_, _, link, isImage⟩ := sealedThen
  rw [← LinkedNode.records_appendAll, isImage]
  rfl

/-- The validation loop of `get` compares the checksum of what was sealed with that of all pairs. -/
theorem accepted_iff : Accepted type image ↔ crcValidate history.image type = crcValidate history.base type := by
  obtain ⟨_, accepted, link, isImage⟩ := sealedThen
  have sameCrc : image.crc = crcValidate history.base type := by
    rw [isImage]
    exact (LinkedNode.appendAll_crc history.added).trans accepted.symm
  have samePairs : crcValidate image type = crcValidate history.image type := by
    rw [isImage]
    exact crcValidate_congr fun _ _ => rfl
  unfold Accepted
  rw [sameCrc, samePairs]

end SealedThen

end Images

namespace ComputeNode

variable {source : SegmentSource} {node start before after moved : ComputeNode} {thread : ThreadId}
variable {target id : NodeId} {history : NodeId → SealedNode} {pair : KV} {draws : PutDraws}

/-! ### Stores whose images are sealed -/

/-- A node that has just been sealed. -/
def sealedAnew (node : ComputeNode) (id : NodeId) : SealedNode := ⟨node.imageOf id, []⟩

/-- The data nodes have chunks of their own, and each image has the checksum of the records it had
before those that were added in place. -/
structure Guarded (source : SegmentSource) (node : ComputeNode) (history : NodeId → SealedNode) : Prop where
  settled : Settled source node
  separate : ∀ left < node.slist.count, ∀ right < node.slist.count, left ≠ right →
    (node.slist.nodes left).dataNode ≠ (node.slist.nodes right).dataNode
  sealedThen : ∀ id < node.slist.count, id ≠ SkipList.head →
    SealedThen (node.slist.nodes id).type (history id) (node.imageOf id)

omit [Digest] in
/-- A chunk that is in reserve is no node's. -/
theorem Settled.ne_fresh (settled : Settled source node) (known : id < node.slist.count)
    {remote : RemotePointer} (fresh : RemoteHeap.Reserve source node.heap remote) :
    (node.slist.nodes id).dataNode ≠ remote := by
  intro same
  rw [← same] at fresh
  by_cases isHead : id = SkipList.head
  · rw [isHead] at fresh
    exact settled.headTaken fresh
  · exact (settled.placed id known isHead).taken fresh

omit [Digest] in
/-- A node that moves to the chunk and the type it has. -/
theorem Moved.in_place (moved : Moved before.slist after.slist target (before.slist.nodes target).dataNode
    (before.slist.nodes target).type) :
    (∀ id, (after.slist.nodes id).dataNode = (before.slist.nodes id).dataNode) ∧
      ∀ id, (after.slist.nodes id).type = (before.slist.nodes id).type := by
  constructor
  · intro id
    rw [moved.dataNode]
    split
    next isTarget => rw [isTarget]
    next => rfl
  · intro id
    rw [moved.type]
    split
    next isTarget => rw [isTarget]
    next => rfl

namespace Guarded

/-- Steps that leave chunks, types and images as they are. -/
theorem same (guarded : Guarded source before history) (settled : Settled source after)
    (count : after.slist.count = before.slist.count)
    (dataNode : ∀ id, (after.slist.nodes id).dataNode = (before.slist.nodes id).dataNode)
    (type : ∀ id, (after.slist.nodes id).type = (before.slist.nodes id).type)
    (remote : after.remote = before.remote) : Guarded source after history := by
  constructor
  case settled => exact settled
  case separate =>
    rw [count]
    intro left leftKnown right rightKnown differ
    rw [dataNode, dataNode]
    exact guarded.separate left leftKnown right rightKnown differ
  case sealedThen =>
    rw [count]
    intro id known notHead
    unfold imageOf
    rw [type, dataNode, remote]
    exact guarded.sealedThen id known notHead

variable (guarded : Guarded source start history)

include guarded

/-- The batch of a morph or a split links the predecessor, and no other image changes. -/
theorem relinked (known : target < start.slist.count) (notHead : target ≠ SkipList.head) (thread : ThreadId)
    (link : RemotePointer) (isKnown : id < start.slist.count) (isData : id ≠ SkipList.head) :
    SealedThen (start.slist.nodes id).type (history id)
      (Function.update start.remote (start.predData target)
        (LinkedNode.overlay (sizeofNode (start.fetchedPred thread target).type)
          { start.fetchedPred thread target with rlink := link } (start.remote (start.predData target)))
        (start.slist.nodes id).dataNode) := by
  have image := guarded.sealedThen id isKnown isData
  have placed := guarded.settled.placed target known notHead
  by_cases isPred : id = start.backwardOf target
  · have place : start.predData target = (start.slist.nodes id).dataNode := by
      unfold predData
      rw [isPred]
    have nonempty := sizeofNode_ne_zero (guarded.settled.placed id isKnown isData).isData
    have fetched : start.fetchedPred thread target = LinkedNode.overlay (sizeofNode (start.slist.nodes id).type)
        (start.imageOf id) (start.buffers thread 0) := by
      unfold fetchedPred imageOf
      rw [place, isPred]
    have isType : (start.fetchedPred thread target).type = (start.slist.nodes id).type := by
      rw [fetched, LinkedNode.overlay_type nonempty]
      exact image.1
    rw [place, Function.update_self, isType, fetched]
    change SealedThen _ _ (LinkedNode.overlay _ { LinkedNode.overlay _ (start.imageOf id) _ with rlink := link }
      (start.imageOf id))
    rw [LinkedNode.overlay_relinked nonempty]
    exact image.relinked link
  · have apart : (start.slist.nodes id).dataNode ≠ start.predData target :=
      guarded.separate id isKnown _ placed.behind isPred
    rw [Function.update_of_ne apart]
    exact image

/-- A put into a node with room. -/
theorem inPlace (known : target < start.slist.count) (notHead : target ≠ SkipList.head)
    (queue : (start.contexts thread).requests = []) (isDone : draws.write = .done)
    (room : (start.imageOf target).next < (start.slist.nodes target).type.capacity) :
    ∃ after, start.putWon source thread target pair.key.val pair.value.val draws (start.slist.nodes target).type
          (planOf (start.slist.nodes target).type) = ⟨true, [], after⟩ ∧
      Guarded source after (Function.update history target
        { history target with
          added :=
            if ((start.imageOf target).find pair.key.val).isSome then (history target).added
            else (history target).added ++ [pair] }) := by
  have isData := (guarded.settled.placed target known notHead).isData
  have fetchedRoom : (start.fetchedReal thread target).next < (start.slist.nodes target).type.capacity := by
    rw [fetchedReal_next isData]
    exact room
  obtain ⟨after, returned, settled, moved, remote⟩ := @Settled.inPlace source start thread target _ _ pair.key.val
    pair.value.val draws guarded.settled known notHead rfl queue isDone (planOf _) fetchedRoom
  have written : after.remote = Function.update start.remote (start.slist.nodes target).dataNode
      ((start.imageOf target).store (start.slist.nodes target).type.capacity pair.key.val pair.value.val).2 :=
    remote.trans (congrArg _ (overlay_store isData room pair))
  obtain ⟨sameData, sameType⟩ := moved.in_place
  refine ⟨after, returned, settled, ?_, ?_⟩
  · rw [moved.count]
    intro left leftKnown right rightKnown differ
    rw [sameData, sameData]
    exact guarded.separate left leftKnown right rightKnown differ
  · rw [moved.count]
    intro id isKnown isOther
    unfold imageOf
    rw [sameType, sameData, written]
    by_cases isTarget : id = target
    · rw [isTarget, Function.update_self, Function.update_self]
      exact (guarded.sealedThen target known notHead).store room pair
    · rw [Function.update_of_ne isTarget,
        Function.update_of_ne (guarded.separate id isKnown target known isTarget)]
      exact guarded.sealedThen id isKnown isOther

omit guarded in
/-- What a morph or a split seals is written as a whole. -/
theorem sealed_written {type : LinkedNodeType} (isData : type.IsData) (image old : LinkedNode)
    (link : RemotePointer) {written : LinkedNode} (isWritten : written =
      LinkedNode.overlay (sizeofNode type) { sealedAs type image with rlink := link } old) :
    SealedThen type ⟨written, []⟩ written := by
  have accepted : Accepted type { sealedAs type image with rlink := link } := crcValidate_congr fun _ _ => rfl
  rw [isWritten]
  exact .anew (accepted.overlay isData le_rfl) (LinkedNode.overlay_type (sizeofNode_ne_zero isData))

/-- The chunks of the old nodes, once the target has got one that was in reserve. -/
theorem separate_moved {remote : RemotePointer} (fresh : RemoteHeap.Reserve source start.heap remote)
    {chunks : NodeId → RemotePointer} (place : ∀ id < start.slist.count,
      chunks id = if id = target then remote else (start.slist.nodes id).dataNode) :
    ∀ left < start.slist.count, ∀ right < start.slist.count, left ≠ right → chunks left ≠ chunks right := by
  intro left leftKnown right rightKnown differ
  rw [place left leftKnown, place right rightKnown]
  by_cases isLeft : left = target
  · have notRight : right ≠ target := fun isRight => differ (isLeft.trans isRight.symm)
    rw [if_pos isLeft, if_neg notRight]
    exact (guarded.settled.ne_fresh rightKnown fresh).symm
  · rw [if_neg isLeft]
    by_cases isRight : right = target
    · rw [if_pos isRight]
      exact guarded.settled.ne_fresh leftKnown fresh
    · rw [if_neg isRight]
      exact guarded.separate left leftKnown right rightKnown differ

theorem grown (known : target < start.slist.count) (notHead : target ≠ SkipList.head)
    {chosen : LinkedNodeType} (isData : chosen.IsData) {image : LinkedNode} {remote : RemotePointer}
    (rewritten : Rewritten source (start.fetchTwo thread target) thread target (start.fetchedPred thread target)
      (sealedAs chosen image) [] remote moved) :
    Guarded source (moved.release thread target)
      (Function.update (Function.update history target ((moved.release thread target).sealedAnew target))
        start.slist.count ((moved.release thread target).sealedAnew start.slist.count)) := by
  have settled := guarded.settled
  have fresh : RemoteHeap.Reserve source start.heap remote := rewritten.fresh
  have move : Moved start.slist (moved.release thread target).slist target remote chosen :=
    rewritten.moved.release thread
  have memory : (moved.release thread target).remote = _ := rewritten.memory
  refine ⟨(settled.rewritten notHead rewritten isData).1, ?_, ?_⟩
  · rw [move.count]
    exact guarded.separate_moved fresh fun id _ => move.dataNode id
  · rw [move.count]
    intro id isKnown isOther
    rw [move.type, Function.update_of_ne isKnown.ne]
    by_cases isTarget : id = target
    · rw [if_pos isTarget, isTarget, Function.update_self]
      have written : (moved.release thread target).imageOf target =
          LinkedNode.overlay (sizeofNode chosen) (sealedAs chosen image) (start.remote remote) := by
        unfold imageOf
        rw [move.dataNode, memory, if_pos rfl, Function.update_self]
        rfl
      exact sealed_written isData image _ image.rlink written
    · unfold imageOf
      rw [if_neg isTarget, move.dataNode, memory, if_neg isTarget, Function.update_of_ne isTarget,
        Function.update_of_ne (settled.ne_fresh isKnown fresh)]
      exact guarded.relinked known notHead thread remote isKnown isOther

theorem halved (known : target < start.slist.count) (notHead : target ≠ SkipList.head)
    {left right : LinkedNode} {anchor : Str} {level : Level} {l r : RemotePointer}
    (split : SplitInTwo source (start.fetchTwo thread target) thread target (start.fetchedPred thread target)
      (sealedAs .type10 left) (sealedAs .type10 right) anchor .type10 .type10 [] level l r moved) :
    Guarded source (moved.release thread target)
      (Function.update (Function.update history target ((moved.release thread target).sealedAnew target))
        start.slist.count ((moved.release thread target).sealedAnew start.slist.count)) := by
  have settled := guarded.settled
  have leftFresh : RemoteHeap.Reserve source start.heap l := split.leftFresh.1
  have rightFresh : RemoteHeap.Reserve source start.heap r := split.rightFresh.1
  have nodes : SplitNodes start.slist (moved.release thread target).slist target anchor l r .type10 .type10 :=
    split.released known.ne
  have memory : (moved.release thread target).remote = _ := split.memory
  have place : ∀ id < start.slist.count, ((moved.release thread target).slist.nodes id).dataNode =
      if id = target then l else (start.slist.nodes id).dataNode := by
    intro id isKnown
    split
    next isTarget =>
      rw [isTarget]
      exact nodes.left.1
    next isOther => exact ((nodes.others id isKnown.ne).2.2 isOther).1
  have apart : ∀ id < start.slist.count, ((moved.release thread target).slist.nodes id).dataNode ≠ r := by
    intro id isKnown
    rw [place id isKnown]
    split
    next => exact split.differ
    next => exact settled.ne_fresh isKnown rightFresh
  have old : ∀ id < start.slist.count + 1, id ≠ start.slist.count → id < start.slist.count := by
    intro id isKnown notNew
    omega
  refine ⟨?_, ?_, ?_⟩
  · exact settled.divided nodes LinkedNodeType.isData10 LinkedNodeType.isData10 known notHead split.sound
      split.shrinks split.leftFresh.2 split.rightFresh.2 split.remotePut
  · rw [nodes.count]
    intro first firstKnown second secondKnown differ
    by_cases firstNew : first = start.slist.count
    · rw [firstNew, nodes.right.1]
      exact (apart second (old second secondKnown fun same => differ (firstNew.trans same.symm))).symm
    · by_cases secondNew : second = start.slist.count
      · rw [secondNew, nodes.right.1]
        exact apart first (old first firstKnown firstNew)
      · exact guarded.separate_moved leftFresh place first (old first firstKnown firstNew) second
          (old second secondKnown secondNew) differ
  · rw [nodes.count]
    intro id isKnown isOther
    by_cases isNew : id = start.slist.count
    · have written : (moved.release thread target).imageOf start.slist.count =
          LinkedNode.overlay (sizeofNode .type10) { sealedAs .type10 right with rlink := (sealedAs .type10 left).rlink }
            (start.remote r) := by
        unfold imageOf
        rw [nodes.right.1, memory, Function.update_self]
        rfl
      rw [isNew, Function.update_self, nodes.right.2.1]
      exact sealed_written LinkedNodeType.isData10 _ _ _ written
    · have isOld := old id isKnown isNew
      rw [Function.update_of_ne isNew]
      by_cases isTarget : id = target
      · have written : (moved.release thread target).imageOf target =
            LinkedNode.overlay (sizeofNode .type10) { sealedAs .type10 left with rlink := r } (start.remote l) := by
          unfold imageOf
          rw [nodes.left.1, memory, Function.update_of_ne split.differ, Function.update_self]
          rfl
        rw [isTarget, Function.update_self, nodes.left.2]
        exact sealed_written LinkedNodeType.isData10 _ _ _ written
      · obtain ⟨sameData, sameType⟩ := (nodes.others id isNew).2.2 isTarget
        unfold imageOf
        rw [Function.update_of_ne isTarget, sameData, sameType, memory,
          Function.update_of_ne (settled.ne_fresh isOld rightFresh),
          Function.update_of_ne (settled.ne_fresh isOld leftFresh)]
        exact guarded.relinked known notHead thread l isOld isOther

end Guarded

/-! ### Puts -/

/-- What became of each node, once `pair` is put and the state is `after`: a node with room gets the
record in place, and a full one is sealed anew, with a new node if it is split. The flush seals both
nodes. -/
def historyAfter (node after : ComputeNode) (pair : KV) (history : NodeId → SealedNode) : NodeId → SealedNode :=
  if node.remotePut then
    match node.slist.fuzzySearch pair.key.val with
    | none => history
    | some target =>
        if (node.imageOf target).next < (node.slist.nodes target).type.capacity then
          Function.update history target
            { history target with
              added :=
                if ((node.imageOf target).find pair.key.val).isSome then (history target).added
                else (history target).added ++ [pair] }
        else
          Function.update (Function.update history target (after.sealedAnew target))
            node.slist.count (after.sealedAnew node.slist.count)
  else after.sealedAnew

/-- A put after the flush. -/
theorem Guarded.put_returned (guarded : Guarded source node history) (idle : Idle node) {flush : FlushDraws}
    (done : AllWritesDone flush draws) {result : Bool}
    (returned : node.put source thread pair.key.val pair.value.val flush draws = (.returned result, after)) :
    Guarded source after (node.historyAfter after pair history) := by
  have settled := guarded.settled
  obtain ⟨target, found, notHead⟩ := settled.put_routed returned
  have known := idle.closed.fuzzySearch_lt found
  obtain ⟨won, wonInsert, wonSettled, isPut⟩ := settled.put_won idle thread found notHead pair.value.val flush draws
  have same := wonInsert.sameChain
  have wonGuarded := guarded.same wonSettled same.count same.dataNode same.type same.remote
  have wonKnown : target < won.slist.count := same.count.symm ▸ known
  have isData := (wonSettled.placed target wonKnown notHead).isData
  unfold historyAfter
  simp only [settled.remotePut, if_true, found]
  rw [← same.imageOf, ← same.type, ← same.count]
  rw [← same.type] at isPut
  by_cases room : (won.imageOf target).next < (won.slist.nodes target).type.capacity
  · obtain ⟨late, isLate, kept⟩ := @Guarded.inPlace _ source won thread target history pair draws wonGuarded wonKnown
      notHead wonInsert.requests done.write room
    rw [isPut, isLate] at returned
    cases returned
    rw [if_pos room]
    exact kept
  · have full : (won.slist.nodes target).type.capacity ≤ (won.fetchedReal thread target).next := by
      rw [fetchedReal_next isData]
      exact not_lt.mp room
    obtain ⟨replies, moved, isMoved, outgrows⟩ := @Settled.full source won thread target _ _ pair.key.val
      pair.value.val draws wonSettled wonKnown notHead isData wonInsert.requests done.batch full
    rw [isPut, isMoved] at returned
    cases returned
    rw [if_neg room]
    cases outgrows with
    | grown _ isChosen rewritten => exact wonGuarded.grown wonKnown notHead isChosen rewritten
    | halved _ _ split => exact wonGuarded.halved wonKnown notHead split

/-- Both images of a flush are sealed. -/
theorem flushedImage_accepted {stage : LocalStage} (flushable : Flushable stage) {flushNode : LinkedNode}
    (tag : flushNode.type = .type12) (slot place : Fin 2) (larger smaller : RemotePointer) (pair : KV) :
    Accepted (flushedType slot place)
      (flushedImage flushNode stage slot larger smaller pair.key.val pair.value.val place) := by
  rw [← (flushedImage_intact flushable tag slot place larger smaller pair).1]
  unfold flushedImage largerImage flushLarger
  split
  next =>
    split
    next => exact crcValidate_congr fun _ _ => rfl
    next => exact crcValidate_congr fun _ _ => rfl
  next => exact crcValidate_congr fun _ _ => rfl

/-- A flush seals both nodes. -/
theorem Staging.put_seals (staging : Staging source node) {flush : FlushDraws} (done : AllWritesDone flush draws)
    (full : node.stage.quickPut pair.key.val pair.value.val = none) {result : Bool}
    (returned : node.put source thread pair.key.val pair.value.val flush draws = (.returned result, after)) :
    Guarded source after after.sealedAnew := by
  have unflushed := staging.unflushed
  obtain ⟨larger, smaller, flushed⟩ := staging.put_flushes done full returned
  obtain ⟨sameNodes, ordered, _⟩ := staging.picked full
  obtain ⟨levels, _, _, nodes⟩ := @Flushed.twoNodes _ source _ after thread _ flush larger smaller pair flushed
    unflushed.slist ordered
  have images := @Flushed.images _ source _ after thread _ flush larger smaller pair flushed
  have flushable : Flushable (node.stage.quickPutPickNode pair.key.val).1 := by
    constructor
    · rw [sameNodes]
      exact unflushed.shape.marked
    · rw [sameNodes]
      exact unflushed.shape.bounded
    · rw [sameNodes]
      exact unflushed.shape.tag
  have place : ∀ id < after.slist.count, id = SkipList.head ∨ ∃ place : Fin 2, id = place.val + 1 := by
    intro id known
    rw [nodes.count] at known
    rcases Nat.eq_zero_or_pos id with isHead | positive
    · exact Or.inl isHead
    · exact Or.inr ⟨⟨id - 1, by omega⟩, by simp only; omega⟩
  have notHead : ∀ place : Fin 2, (after.slist.nodes SkipList.head).dataNode ≠
      (after.slist.nodes (place.val + 1)).dataNode := by
    intro place
    rw [nodes.headNode, (twoNodes_place nodes place).1, flushedChunk]
    split
    next => exact flushed.largerNotHead.symm
    next => exact flushed.smallerNotHead.symm
  refine ⟨flushed.settled unflushed.slist ordered, ?_, ?_⟩
  · intro left leftKnown right rightKnown differ
    rcases place left leftKnown with leftHead | ⟨leftPlace, isLeft⟩
    · rcases place right rightKnown with rightHead | ⟨rightPlace, isRight⟩
      · exact absurd (leftHead.trans rightHead.symm) differ
      · rw [leftHead, isRight]
        exact notHead rightPlace
    · rcases place right rightKnown with rightHead | ⟨rightPlace, isRight⟩
      · rw [rightHead, isLeft]
        exact (notHead leftPlace).symm
      · rw [isLeft, isRight, (twoNodes_place nodes leftPlace).1, (twoNodes_place nodes rightPlace).1]
        unfold flushedChunk
        have places : leftPlace ≠ rightPlace := fun same => differ (by rw [isLeft, isRight, same])
        by_cases isSlot : leftPlace = (node.stage.quickPutPickNode pair.key.val).2
        · rw [if_pos isSlot, if_neg fun same => places (isSlot.trans same.symm)]
          exact flushed.differ
        · rw [if_neg isSlot, if_pos (by omega)]
          exact flushed.differ.symm
  · intro id known isOther
    rcases place id known with isHead | ⟨place, isPlace⟩
    · exact absurd isHead isOther
    · obtain ⟨dataNode, type⟩ := twoNodes_place nodes place
      have isData := flushedType_isData (node.stage.quickPutPickNode pair.key.val).2 place
      have written := images place
      rw [isPlace]
      change SealedThen _ ⟨after.imageOf (place.val + 1), []⟩ _
      unfold imageOf
      rw [dataNode, type, written]
      apply SealedThen.anew
      · exact (flushedImage_accepted flushable unflushed.tag _ place larger smaller pair).overlay isData le_rfl
      · exact (LinkedNode.overlay_type (sizeofNode_ne_zero isData)).trans
          (flushedImage_intact flushable unflushed.tag _ place larger smaller pair).1

/-! ### Runs -/

/-- The states of one client whose writes are all done, with what became of each node since it was
sealed last. -/
inductive SealRun (source : SegmentSource) (thread : ThreadId) : ComputeNode → (NodeId → SealedNode) → Prop where
  | initialized (main : ThreadId) (memory : RemotePointer → LinkedNode)
      (buffers : ThreadId → Nat → LinkedNode) (heap : Fin 2 → LinkedNode) :
      SealRun source thread (initialized source main memory buffers heap)
        (initialized source main memory buffers heap).sealedAnew
  | put {node after : ComputeNode} {history : NodeId → SealedNode} (earlier : SealRun source thread node history)
      (pair : KV) {flush : FlushDraws} {draws : PutDraws} (done : AllWritesDone flush draws) {result : Bool}
      (returned : node.put source thread pair.key.val pair.value.val flush draws = (.returned result, after)) :
      SealRun source thread after (node.historyAfter after pair history)
  | get {node after : ComputeNode} {history : NodeId → SealedNode} (earlier : SealRun source thread node history)
      (key : Bytes16) {result : Option Bytes16} (returned : node.get thread key.val = (.returned result, after)) :
      SealRun source thread after history
  | scan {node after : ComputeNode} {history : NodeId → SealedNode} (earlier : SealRun source thread node history)
      (key : Bytes16) (count : Nat) {total : Nat}
      (returned : node.scan thread key.val count = (.returned total, after)) : SealRun source thread after history
  | calibrate {node : ComputeNode} {history : NodeId → SealedNode} (earlier : SealRun source thread node history) :
      SealRun source thread node.calibrateNext history

theorem SealRun.clientRun (run : SealRun source thread node history) : ClientRun source thread node := by
  induction run with
  | initialized main memory buffers heap => exact .initialized main memory buffers heap
  | put _ pair _ returned inductionHypothesis =>
      exact inductionHypothesis.step (.put pair.key pair.value _ _ returned)
  | get _ key returned inductionHypothesis => exact inductionHypothesis.step (.get key returned)
  | scan _ key count returned inductionHypothesis => exact inductionHypothesis.step (.scan key count returned)
  | calibrate _ inductionHypothesis => exact inductionHypothesis.step .calibrate

/-- Before the flush nothing is in remote memory; after it every image is sealed. -/
inductive Seals (source : SegmentSource) (node : ComputeNode) (history : NodeId → SealedNode) : Prop where
  | staging (staging : Staging source node)
  | guarded (guarded : Guarded source node history)

theorem Seals.put (seals : Seals source node history) (idle : Idle node) {flush : FlushDraws}
    (done : AllWritesDone flush draws) {result : Bool}
    (returned : node.put source thread pair.key.val pair.value.val flush draws = (.returned result, after)) :
    Seals source after (node.historyAfter after pair history) := by
  cases seals with
  | staging staging =>
      have same : node.historyAfter after pair history = after.sealedAnew := by
        unfold historyAfter
        rw [if_neg (by rw [staging.unflushed.staysLocal]; decide)]
      rw [same]
      cases stays : node.stage.quickPut pair.key.val pair.value.val with
      | some stage => exact .staging (staging.put_stays stays returned)
      | none => exact .guarded (staging.put_seals done stays returned)
  | guarded guarded => exact .guarded (guarded.put_returned idle done returned)

theorem Seals.of_readsOnly (seals : Seals source before history) (reads : ReadsOnly before after) :
    Seals source after history := by
  cases seals with
  | staging staging => exact .staging (staging.of_readsOnly reads)
  | guarded guarded =>
      rcases reads with ⟨buffers, contexts, isAfter⟩
      have same : SameStore before after := by
        rw [isAfter]
        exact ⟨SkipList.SameNodes.refl _, rfl, rfl, rfl, rfl⟩
      rw [isAfter] at same ⊢
      exact .guarded (guarded.same (same.settled guarded.settled) rfl (fun _ => rfl) (fun _ => rfl) rfl)

theorem Seals.calibrateNext (seals : Seals source node history) : Seals source node.calibrateNext history := by
  cases seals with
  | staging staging =>
      unfold ComputeNode.calibrateNext
      rw [staging.queue]
      exact .staging staging
  | guarded guarded =>
      have settled := guarded.settled.calibrateNext
      unfold ComputeNode.calibrateNext at settled ⊢
      split
      next => exact .guarded guarded
      next entry rest isQueue =>
        simp only [isQueue] at settled
        have nodes := SkipList.sameNodes_calibrate node.slist entry.newNode entry.level
        exact .guarded (guarded.same settled nodes.count nodes.dataNode nodes.type rfl)

theorem SealRun.seals (run : SealRun source thread node history) : Seals source node history := by
  induction run with
  | initialized main memory buffers heap =>
      exact .staging ⟨initialized_unflushed source main memory buffers heap (LocalStage.shape_initial heap), rfl⟩
  | put earlier pair done returned inductionHypothesis =>
      exact inductionHypothesis.put earlier.clientRun.idle done returned
  | @get node after _ _ key result returned inductionHypothesis =>
      have reads := readsOnly_get node thread key.val
      rw [returned] at reads
      exact inductionHypothesis.of_readsOnly reads
  | @scan node after _ _ key count total returned inductionHypothesis =>
      have reads := readsOnly_scan node thread key.val count
      rw [returned] at reads
      exact inductionHypothesis.of_readsOnly reads
  | calibrate _ inductionHypothesis => exact inductionHypothesis.calibrateNext

/-- `get` returns exactly if the image of the node it is led to passes the check. -/
theorem get_accepted_iff (reader : ThreadId) {key : Str} (remotePut : node.remotePut = true)
    (found : node.slist.fuzzySearch key = some target) :
    (∃ result after, node.get reader key = (.returned result, after)) ↔
      Accepted (node.slist.nodes target).type (node.imageOf target) := by
  have outcome := node.get_remote reader remotePut found
  have covers := pairsOffset_le_sizeofNode LinkedNodeType.isData16
  have small := capacity_le_sixteen (node.slist.nodes target).type
  have samePairs : crcValidate (node.fetched reader target) (node.slist.nodes target).type =
      crcValidate (node.imageOf target) (node.slist.nodes target).type := by
    apply crcValidate_congr
    intro index inside
    apply LinkedNode.overlay_pairs_of_le
    change pairsOffset + 32 * 16 ≤ _ at covers
    omega
  have sameCrc : (node.fetched reader target).crc = (node.imageOf target).crc :=
    LinkedNode.overlay_crc (sizeofNode_ne_zero LinkedNodeType.isData16)
  rw [samePairs, sameCrc] at outcome
  unfold Accepted
  constructor
  · intro returns
    obtain ⟨result, after, returned⟩ := returns
    by_contra refused
    rw [returned, if_neg refused] at outcome
    cases outcome
  · intro accepted
    rw [if_pos accepted] at outcome
    exact ⟨_, _, Prod.ext outcome rfl⟩

/-- A `get` returns if its node got nothing in place since it was sealed last, and otherwise exactly if
the records in place do not change the checksum of the image that was sealed. -/
theorem get_returns_iff (run : SealRun source thread node history) (flushed : node.remotePut = true) {key : Str}
    (found : node.slist.fuzzySearch key = some target) (notHead : target ≠ SkipList.head) (reader : ThreadId) :
    (node.imageOf target).records = (history target).base.records ++ (history target).added ∧
      ((history target).added = [] → ∃ result after, node.get reader key = (.returned result, after)) ∧
      ((∃ result after, node.get reader key = (.returned result, after)) ↔
        crcValidate (history target).image (node.slist.nodes target).type =
          crcValidate (history target).base (node.slist.nodes target).type) := by
  have known := run.clientRun.idle.closed.fuzzySearch_lt found
  cases run.seals with
  | staging staging =>
      rw [staging.unflushed.staysLocal] at flushed
      cases flushed
  | guarded guarded =>
      have sealedThen := guarded.sealedThen target known notHead
      have returns := (node.get_accepted_iff reader flushed found).trans sealedThen.accepted_iff
      refine ⟨sealedThen.records, fun none => ?_, returns⟩
      rw [returns, SealedNode.image, none]
      rfl

end ComputeNode

end DiStore.Cluster

/-! ### Twelve puts and one in place -/

namespace DiStore.Cluster.ComputeNode

open DiStore.DataLayer DiStore.Memory DiStore.SearchLayer

section Trace

variable [Digest]

/-- Puts that all return, with what becomes of each node. -/
def sealAll (start : ComputeNode × (NodeId → SealedNode)) (records : List KV) :
    Option (ComputeNode × (NodeId → SealedNode)) :=
  records.foldlM
    (fun state pair =>
      match state.1.put (.memoryNode 0) 0 pair.key.val pair.value.val drawsDone writesDone with
      | (.returned _, after) => some (after, state.1.historyAfter after pair state.2)
      | _ => none)
    start

theorem SealRun.sealAll {start last : ComputeNode × (NodeId → SealedNode)} {records : List KV}
    (run : SealRun (.memoryNode 0) 0 start.1 start.2) (reached : sealAll start records = some last) :
    SealRun (.memoryNode 0) 0 last.1 last.2 := by
  induction records generalizing start with
  | nil =>
      cases reached
      exact run
  | cons pair records inductionHypothesis =>
      unfold ComputeNode.sealAll at reached
      rw [List.foldlM_cons, Option.bind_eq_bind, Option.bind_eq_some_iff] at reached
      rcases reached with ⟨next, isNext, later⟩
      split at isNext
      next result middle returned =>
        cases isNext
        exact inductionHypothesis (run.put pair ⟨rfl, rfl, rfl, rfl⟩ returned) later
      next => cases isNext

end Trace

attribute [local instance] Digests.source

/-- The client before its first put, over zeroed memory. -/
def zeroClient : ComputeNode :=
  initialized (.memoryNode 0) 0 (fun _ => .zeroed) (fun _ _ => .zeroed) fun _ => .zeroed

/-- The thirteenth put is stored in place in the second node. -/
def sealThirteen : Option (ComputeNode × (NodeId → SealedNode)) :=
  sealAll (zeroClient, zeroClient.sealedAnew) (byteOffers 97 11 ++ [filled 120 2, filled 121 3])

/-- A get that is led to the first node returns. -/
theorem sealed_node_read :
    ∃ node history, sealThirteen = some (node, history) ∧ (history 2).added = [filled 121 3] ∧
      ∃ result after, node.get 0 (Bytes16.fill 97).val = (.returned result, after) := by
  have facts : sealThirteen.map (fun state =>
      decide (state.1.remotePut = true ∧ state.1.slist.fuzzySearch (Bytes16.fill 97).val = some 1 ∧
        (state.2 1).added = [] ∧ (state.2 2).added = [filled 121 3])) = some true := by decide +kernel
  obtain ⟨state, reached, isState⟩ := Option.map_eq_some_iff.mp facts
  obtain ⟨flushed, found, sealed, inPlace⟩ := of_decide_eq_true isState
  have run := SealRun.sealAll (.initialized 0 (fun _ => .zeroed) (fun _ _ => .zeroed) fun _ => .zeroed) reached
  exact ⟨state.1, state.2, reached, inPlace,
    (get_returns_iff run flushed found (show (1 : NodeId) ≠ SkipList.head by decide) 0).2.1 sealed⟩

end DiStore.Cluster.ComputeNode
