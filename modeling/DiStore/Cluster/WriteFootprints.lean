import DiStore.Cluster.SealedImages

/-!
Contract: which bytes of remote memory one client writes.

Owns: the chunks that a client has allocated as extents that share no byte
(`ComputeNode.Granted`), and that every write of a run goes to the start of a chunk that a search
node names, and fits in it.

The size of a write is `sizeof_node` of the type in the image that is written, and for the
predecessor of a node this is the type that was fetched from remote memory. So the bound rests on
the images: each has the type of its search node.

Does not own: reads. `get` fetches the size of a `LinkedNode16` from a chunk of any type.
-/

set_option autoImplicit false

namespace DiStore.Cluster.ComputeNode

open DiStore.Concurrency DiStore.DataLayer DiStore.Library DiStore.Memory DiStore.SearchLayer

variable {source : SegmentSource} {node start before after moved : ComputeNode} {thread : ThreadId}
variable {target id : NodeId} {remote : RemotePointer} {heap taken : RemoteHeap} {size : Nat}
variable {log : List (RemotePointer × Nat)}

/-! ### Chunks -/

/-- The bytes of a chunk or of a write. -/
def Covers (extent : RemotePointer × Nat) (address : Nat) : Prop :=
  extent.1 ≤ address ∧ address < extent.1 + extent.2

/-- Two chunks that share no byte. -/
def Apart (left right : RemotePointer × Nat) : Prop :=
  ∀ address, Covers left address → ¬ Covers right address

instance symmApart : Std.Symm Apart :=
  ⟨fun _ _ apart address inRight inLeft => apart address inLeft inRight⟩

/-- The chunks in a log are apart, and none of their bytes will be given out again. -/
structure Granted (source : SegmentSource) (heap : RemoteHeap) (log : List (RemotePointer × Nat)) : Prop where
  apart : log.Pairwise Apart
  taken : ∀ chunk ∈ log, ∀ address, Covers chunk address → ¬ RemoteHeap.Reserve source heap address

namespace Granted

variable (granted : Granted source heap log)

include granted

/-- A chunk is taken from the reserve. -/
theorem take (took : RemoteHeap.Took source heap taken remote size) :
    Granted source taken ((remote, size) :: log) := by
  constructor
  · apply List.pairwise_cons.mpr
    refine ⟨?_, granted.apart⟩
    intro chunk isMember address inNew inOld
    exact granted.taken chunk isMember address inOld (took.chunk address inNew.1 inNew.2).1
  · intro chunk isMember address inside reserved
    rcases List.mem_cons.mp isMember with isNew | isOld
    · rw [isNew] at inside
      exact (took.chunk address inside.1 inside.2).2 reserved
    · exact granted.taken chunk isOld address inside (took.shrinks address reserved)

/-- Two chunks are taken that share no byte. -/
theorem takeTwo {l r : RemotePointer} {leftSize rightSize : Nat}
    (took : TookTwo source heap taken l r leftSize rightSize) :
    Granted source taken ((r, rightSize) :: (l, leftSize) :: log) := by
  have left := granted.take took.left
  have right := granted.take took.right
  constructor
  · apply List.pairwise_cons.mpr
    refine ⟨?_, left.apart⟩
    intro chunk isMember
    rcases List.mem_cons.mp isMember with isLeft | isOld
    · rw [isLeft]
      intro address inRight inLeft
      exact took.apart address inLeft.1 inLeft.2 inRight
    · exact List.rel_of_pairwise_cons right.apart isOld
  · intro chunk isMember
    rcases List.mem_cons.mp isMember with isRight | isOld
    · rw [isRight]
      exact right.taken _ List.mem_cons_self
    · exact left.taken chunk isOld

end Granted

/-! ### The invariant -/

/-- A write to the chunk of a search node: as long as the chunk, or, behind the fake head, as long as
the type says that is found in its memory. -/
def WritesNamed (node : ComputeNode) (write : RemotePointer × Nat) : Prop :=
  ∃ id < node.slist.count, write.1 = (node.slist.nodes id).dataNode ∧
    (write.2 = sizeofNode (node.slist.nodes id).type ∨
      id = SkipList.head ∧ write.2 = sizeofNode (node.imageOf SkipList.head).type)

/-- The chunks of a client are apart, each search node names one of its own size, and the writes have
gone to chunks. -/
structure Confined (source : SegmentSource) (node : ComputeNode) : Prop where
  granted : Granted source node.heap node.allocations
  named : ∀ id < node.slist.count,
    ((node.slist.nodes id).dataNode, sizeofNode (node.slist.nodes id).type) ∈ node.allocations
  headKnown : SkipList.head < node.slist.count
  posted : ∀ write ∈ node.posted, write ∈ node.allocations ∨
    write = (node.fakeHead, sizeofNode (node.imageOf SkipList.head).type)

/-- The writes that a step has posted. -/
structure Posts (before after : ComputeNode) : Prop where
  fakeHead : after.fakeHead = before.fakeHead
  headTag : (after.imageOf SkipList.head).type = (before.imageOf SkipList.head).type
  posted : ∃ new, after.posted = new ++ before.posted ∧ ∀ write ∈ new, after.WritesNamed write

theorem Confined.step (confined : Confined source before) (posts : Posts before after)
    (granted : Granted source after.heap after.allocations)
    (kept : ∀ chunk ∈ before.allocations, chunk ∈ after.allocations)
    (known : SkipList.head < after.slist.count)
    (named : ∀ id < after.slist.count,
      ((after.slist.nodes id).dataNode, sizeofNode (after.slist.nodes id).type) ∈ after.allocations) :
    Confined source after := by
  refine ⟨granted, named, known, ?_⟩
  obtain ⟨new, isPosted, isNamed⟩ := posts.posted
  intro write isMember
  rw [isPosted] at isMember
  rcases List.mem_append.mp isMember with isNew | isOld
  · obtain ⟨id, isKnown, place, whole | ⟨isHead, headSize⟩⟩ := isNamed write isNew
    · left
      rw [show write = ((after.slist.nodes id).dataNode, sizeofNode (after.slist.nodes id).type) from
        Prod.ext place whole]
      exact named id isKnown
    · right
      rw [isHead] at place
      exact Prod.ext place headSize
  · rcases confined.posted write isOld with inChunk | atHead
    · exact Or.inl (kept write inChunk)
    · right
      rw [atHead, posts.fakeHead, posts.headTag]

/-- Steps that leave the search nodes, the images and both logs as they are. -/
theorem Confined.same (confined : Confined source before) (count : after.slist.count = before.slist.count)
    (dataNode : ∀ id, (after.slist.nodes id).dataNode = (before.slist.nodes id).dataNode)
    (type : ∀ id, (after.slist.nodes id).type = (before.slist.nodes id).type)
    (remote : after.remote = before.remote) (heap : after.heap = before.heap)
    (allocations : after.allocations = before.allocations) (posted : after.posted = before.posted) :
    Confined source after := by
  have sameHead : after.imageOf SkipList.head = before.imageOf SkipList.head := by
    unfold imageOf
    rw [dataNode, remote]
  apply confined.step
  · refine ⟨dataNode SkipList.head, congrArg LinkedNode.type sameHead, [], posted, ?_⟩
    intro write isMember
    cases isMember
  · rw [heap, allocations]
    exact confined.granted
  · rw [allocations]
    exact fun _ isMember => isMember
  · rw [count]
    exact confined.headKnown
  · intro id known
    rw [count] at known
    rw [dataNode, type, allocations]
    exact confined.named id known

/-! ### Puts that are led to a data node -/

section Put

variable [Digest] {history : NodeId → SealedNode} {key value : Str} {draws : PutDraws} {type : LinkedNodeType}

omit [Digest] in
/-- Unlocking leaves the heap and the logs. -/
theorem release_logs (node : ComputeNode) (thread : ThreadId) (target : NodeId) :
    (node.release thread target).heap = node.heap ∧
      (node.release thread target).allocations = node.allocations ∧
      (node.release thread target).posted = node.posted := ⟨rfl, rfl, rfl⟩

omit [Digest] in
/-- So does filling the buffers. -/
theorem staged_logs (node : ComputeNode) (thread : ThreadId) (pred real : LinkedNode)
    (requests : List ConcurrencyRequest) :
    (node.staged thread pred real requests).heap = node.heap ∧
      (node.staged thread pred real requests).allocations = node.allocations ∧
      (node.staged thread pred real requests).posted = node.posted := ⟨rfl, rfl, rfl⟩

/-- A put into a node with room posts one write, of the node. -/
theorem inPlace_logs (queue : (start.contexts thread).requests = []) (isDone : draws.write = .done)
    (plan : Nat → PutPlan) (room : (start.fetchedReal thread target).next < type.capacity)
    (returned : start.putWon source thread target key value draws type plan = ⟨true, [], after⟩) :
    after.heap = start.heap ∧ after.allocations = start.allocations ∧
      after.posted = ((start.slist.nodes target).dataNode, sizeofNode type) :: start.posted := by
  have isWritten := @putWon_inPlace _ source thread target start key value draws type plan room isDone
    ⟨start.fetchedPred thread target, ((start.fetchedReal thread target).store type.capacity key value).2, [], []⟩
    (by rw [firstWork_fetched, queue]; rfl) rfl
  rw [returned] at isWritten
  cases isWritten
  obtain ⟨heap, allocations, posted⟩ := staged_logs (start.fetchTwo thread target) thread
    (start.fetchedPred thread target) ((start.fetchedReal thread target).store type.capacity key value).2 []
  obtain ⟨releasedHeap, releasedAllocations, releasedPosted⟩ := release_logs (((start.fetchTwo thread
    target).staged thread (start.fetchedPred thread target) ((start.fetchedReal thread target).store type.capacity
      key value).2 []).write thread (start.slist.nodes target).dataNode (sizeofNode type) 1 .done) thread target
  exact ⟨releasedHeap.trans heap, releasedAllocations.trans allocations,
    releasedPosted.trans (congrArg (List.cons _) posted)⟩

theorem Confined.inPlace (confined : Confined source start) (guarded : Guarded source start history)
    (known : target < start.slist.count) (notHead : target ≠ SkipList.head)
    (queue : (start.contexts thread).requests = []) (isDone : draws.write = .done)
    (room : (start.fetchedReal thread target).next < (start.slist.nodes target).type.capacity)
    (returned : start.putWon source thread target key value draws (start.slist.nodes target).type
      (planOf (start.slist.nodes target).type) = ⟨true, [], after⟩) :
    Posts start after ∧ Confined source after := by
  obtain ⟨heap, allocations, posted⟩ := inPlace_logs queue isDone _ room returned
  obtain ⟨written, isWritten, _, moved, memory⟩ := @Settled.inPlace source start thread target _ _ key value draws
    guarded.settled known notHead rfl queue isDone (planOf _) room
  rw [returned] at isWritten
  cases isWritten
  obtain ⟨sameData, sameType⟩ := moved.in_place
  have sameHead : after.imageOf SkipList.head = start.imageOf SkipList.head := by
    unfold imageOf
    rw [sameData, memory, Function.update_of_ne
      (guarded.separate _ confined.headKnown target known notHead.symm)]
  have posts : Posts start after := by
    refine ⟨sameData SkipList.head, congrArg LinkedNode.type sameHead, [_], posted, ?_⟩
    intro write isMember
    rw [List.mem_singleton.mp isMember]
    refine ⟨target, moved.count ▸ known, (sameData target).symm, Or.inl ?_⟩
    rw [sameType]
  refine ⟨posts, confined.step posts ?_ ?_ ?_ ?_⟩
  · rw [heap, allocations]
    exact confined.granted
  · rw [allocations]
    exact fun _ isMember => isMember
  · rw [moved.count]
    exact confined.headKnown
  · intro id isKnown
    rw [moved.count] at isKnown
    rw [sameData, sameType, allocations]
    exact confined.named id isKnown

/-- The type fetched for the predecessor is that of its image. -/
theorem Guarded.fetchedPred_type (guarded : Guarded source start history) (known : target < start.slist.count)
    (notHead : target ≠ SkipList.head) (thread : ThreadId) :
    (start.fetchedPred thread target).type = (start.imageOf (start.backwardOf target)).type := by
  have behind := (guarded.settled.placed target known notHead).behind
  apply LinkedNode.overlay_type
  by_cases isHead : start.backwardOf target = SkipList.head
  · rw [isHead, guarded.settled.headType]
    decide
  · exact sizeofNode_ne_zero (guarded.settled.placed _ behind isHead).isData

/-- Linking the predecessor leaves the tag of the fake head. -/
theorem Guarded.relinked_head (guarded : Guarded source start history) (known : target < start.slist.count)
    (notHead : target ≠ SkipList.head) (headKnown : SkipList.head < start.slist.count) (thread : ThreadId)
    (link : RemotePointer) :
    (Function.update start.remote (start.predData target)
      (LinkedNode.overlay (sizeofNode (start.fetchedPred thread target).type)
        { start.fetchedPred thread target with rlink := link } (start.remote (start.predData target)))
      start.fakeHead).type = (start.imageOf SkipList.head).type := by
  by_cases isHead : start.backwardOf target = SkipList.head
  · have place : start.predData target = start.fakeHead := by
      unfold predData fakeHead
      rw [isHead]
    have tag := guarded.fetchedPred_type known notHead thread
    rw [isHead] at tag
    rw [place, Function.update_self]
    by_cases isEmpty : sizeofNode (start.fetchedPred thread target).type = 0
    · rw [isEmpty]
      rfl
    · rw [LinkedNode.overlay_type isEmpty]
      exact tag
  · have behind := (guarded.settled.placed target known notHead).behind
    have apart : start.fakeHead ≠ start.predData target :=
      guarded.separate _ headKnown _ behind fun same => isHead same.symm
    rw [Function.update_of_ne apart]
    rfl

/-- The write of the predecessor, after the target has moved on. -/
theorem Guarded.writes_pred (guarded : Guarded source start history) (known : target < start.slist.count)
    (notHead : target ≠ SkipList.head) (grows : start.slist.count ≤ after.slist.count)
    (dataNode : ∀ id < start.slist.count, id ≠ target →
      (after.slist.nodes id).dataNode = (start.slist.nodes id).dataNode)
    (type : ∀ id < start.slist.count, id ≠ target → (after.slist.nodes id).type = (start.slist.nodes id).type)
    (headTag : (after.imageOf SkipList.head).type = (start.imageOf SkipList.head).type) :
    after.WritesNamed (start.predData target, sizeofNode (start.fetchedPred thread target).type) := by
  have placed := guarded.settled.placed target known notHead
  refine ⟨start.backwardOf target, placed.behind.trans_le grows, (dataNode _ placed.behind placed.apart).symm, ?_⟩
  rw [guarded.fetchedPred_type known notHead thread]
  by_cases isHead : start.backwardOf target = SkipList.head
  · right
    rw [headTag, isHead]
    exact ⟨rfl, rfl⟩
  · left
    rw [type _ placed.behind placed.apart, (guarded.sealedThen _ placed.behind isHead).1]

/-- A put that moves its node to a larger chunk. -/
theorem Confined.grown (confined : Confined source start) (guarded : Guarded source start history)
    (known : target < start.slist.count) (notHead : target ≠ SkipList.head) {chosen : LinkedNodeType}
    {image : LinkedNode}
    (rewritten : Rewritten source (start.fetchTwo thread target) thread target (start.fetchedPred thread target)
      (sealedAs chosen image) [] remote moved)
    (took : RemoteHeap.Took source start.heap moved.heap remote (sizeofNode chosen)) :
    Posts start (moved.release thread target) ∧ Confined source (moved.release thread target) := by
  have fresh : RemoteHeap.Reserve source start.heap remote := rewritten.fresh
  have move : Moved start.slist (moved.release thread target).slist target remote chosen :=
    rewritten.moved.release thread
  have memory : (moved.release thread target).remote = _ := rewritten.memory
  have allocations : (moved.release thread target).allocations =
      (remote, sizeofNode chosen) :: start.allocations := rewritten.allocations
  have posted : (moved.release thread target).posted = (remote, sizeofNode chosen) ::
      (start.predData target, sizeofNode (start.fetchedPred thread target).type) :: start.posted :=
    rewritten.posted
  have sameData : ∀ id, id ≠ target →
      ((moved.release thread target).slist.nodes id).dataNode = (start.slist.nodes id).dataNode := by
    intro id isOther
    rw [move.dataNode, if_neg isOther]
  have sameType : ∀ id, id ≠ target →
      ((moved.release thread target).slist.nodes id).type = (start.slist.nodes id).type := by
    intro id isOther
    rw [move.type, if_neg isOther]
  have newNode : ((moved.release thread target).slist.nodes target).dataNode = remote := by
    rw [move.dataNode, if_pos rfl]
  have newType : ((moved.release thread target).slist.nodes target).type = chosen := by
    rw [move.type, if_pos rfl]
  have headTag : ((moved.release thread target).imageOf SkipList.head).type =
      (start.imageOf SkipList.head).type := by
    unfold imageOf
    rw [sameData _ notHead.symm, memory,
      Function.update_of_ne (guarded.settled.ne_fresh confined.headKnown fresh)]
    exact guarded.relinked_head known notHead confined.headKnown thread remote
  have posts : Posts start (moved.release thread target) := by
    refine ⟨sameData _ notHead.symm, headTag, [_, _], posted, ?_⟩
    intro write isMember
    rcases List.mem_cons.mp isMember with isNew | isPred
    · rw [isNew]
      exact ⟨target, move.count ▸ known, newNode.symm, Or.inl (by rw [newType])⟩
    · rw [List.mem_singleton.mp isPred]
      exact guarded.writes_pred known notHead move.count.ge (fun id _ => sameData id) (fun id _ => sameType id)
        headTag
  refine ⟨posts, confined.step posts ?_ ?_ ?_ ?_⟩
  · rw [allocations]
    exact confined.granted.take took
  · rw [allocations]
    exact fun _ isMember => List.mem_cons_of_mem _ isMember
  · rw [move.count]
    exact confined.headKnown
  · intro id isKnown
    rw [move.count] at isKnown
    rw [allocations]
    by_cases isTarget : id = target
    · rw [isTarget, newNode, newType]
      exact List.mem_cons_self
    · rw [sameData id isTarget, sameType id isTarget]
      exact List.mem_cons_of_mem _ (confined.named id isKnown)

/-- A put that splits its node. -/
theorem Confined.halved (confined : Confined source start) (guarded : Guarded source start history)
    (known : target < start.slist.count) (notHead : target ≠ SkipList.head)
    {left right : LinkedNode} {anchor : Str} {level : Level} {l r : RemotePointer}
    (split : SplitInTwo source (start.fetchTwo thread target) thread target (start.fetchedPred thread target)
      (sealedAs .type10 left) (sealedAs .type10 right) anchor .type10 .type10 [] level l r moved)
    (took : TookTwo source start.heap moved.heap l r (sizeofNode .type10) (sizeofNode .type10)) :
    Posts start (moved.release thread target) ∧ Confined source (moved.release thread target) := by
  have settled := guarded.settled
  have nodes : SplitNodes start.slist (moved.release thread target).slist target anchor l r .type10 .type10 :=
    split.released known.ne
  have memory : (moved.release thread target).remote = _ := split.memory
  have allocations : (moved.release thread target).allocations =
      (r, sizeofNode .type10) :: (l, sizeofNode .type10) :: start.allocations := split.allocations
  have posted : (moved.release thread target).posted = (r, sizeofNode .type10) :: (l, sizeofNode .type10) ::
      (start.predData target, sizeofNode (start.fetchedPred thread target).type) :: start.posted := split.posted
  have grows : start.slist.count ≤ (moved.release thread target).slist.count := nodes.count ▸ Nat.le_succ _
  have sameData : ∀ id < start.slist.count, id ≠ target →
      ((moved.release thread target).slist.nodes id).dataNode = (start.slist.nodes id).dataNode :=
    fun id isKnown isOther => ((nodes.others id isKnown.ne).2.2 isOther).1
  have sameType : ∀ id < start.slist.count, id ≠ target →
      ((moved.release thread target).slist.nodes id).type = (start.slist.nodes id).type :=
    fun id isKnown isOther => ((nodes.others id isKnown.ne).2.2 isOther).2
  have headTag : ((moved.release thread target).imageOf SkipList.head).type =
      (start.imageOf SkipList.head).type := by
    unfold imageOf
    rw [sameData _ confined.headKnown notHead.symm, memory,
      Function.update_of_ne (settled.ne_fresh confined.headKnown split.rightFresh.1),
      Function.update_of_ne (settled.ne_fresh confined.headKnown split.leftFresh.1)]
    exact guarded.relinked_head known notHead confined.headKnown thread l
  have posts : Posts start (moved.release thread target) := by
    refine ⟨sameData _ confined.headKnown notHead.symm, headTag, [_, _, _], posted, ?_⟩
    intro write isMember
    rcases List.mem_cons.mp isMember with isRight | isMember
    · rw [isRight]
      refine ⟨start.slist.count, nodes.count ▸ Nat.lt_succ_self _, nodes.right.1.symm, Or.inl ?_⟩
      rw [nodes.right.2.1]
    · rcases List.mem_cons.mp isMember with isLeft | isPred
      · rw [isLeft]
        exact ⟨target, known.trans_le grows, nodes.left.1.symm, Or.inl (by rw [nodes.left.2])⟩
      · rw [List.mem_singleton.mp isPred]
        exact guarded.writes_pred known notHead grows sameData sameType headTag
  refine ⟨posts, confined.step posts ?_ ?_ ?_ ?_⟩
  · rw [allocations]
    exact confined.granted.takeTwo took
  · rw [allocations]
    exact fun _ isMember => List.mem_cons_of_mem _ (List.mem_cons_of_mem _ isMember)
  · exact confined.headKnown.trans_le grows
  · intro id isKnown
    rw [nodes.count] at isKnown
    rw [allocations]
    by_cases isNew : id = start.slist.count
    · rw [isNew, nodes.right.1, nodes.right.2.1]
      exact List.mem_cons_self
    · by_cases isTarget : id = target
      · rw [isTarget, nodes.left.1, nodes.left.2]
        exact List.mem_cons_of_mem _ List.mem_cons_self
      · have isOld : id < start.slist.count := lt_of_le_of_ne (Nat.lt_succ_iff.mp isKnown) isNew
        rw [sameData id isOld isTarget, sameType id isOld isTarget]
        exact List.mem_cons_of_mem _ (List.mem_cons_of_mem _ (confined.named id isOld))

omit [Digest] in
/-- A logged chunk is the one that was allocated. -/
theorem took_of_allocate (sound : RemoteHeap.Sound source before.heap) {chosen : LinkedNodeType}
    (isData : chosen.IsData) (heap : after.heap = (before.allocate source thread (sizeofNode chosen)).2.heap)
    (allocations : after.allocations = (before.allocate source thread (sizeofNode chosen)).2.allocations)
    (logged : after.allocations = (remote, size) :: before.allocations) :
    RemoteHeap.Took source before.heap after.heap remote size := by
  obtain ⟨chunk, allocatedHeap, allocated, took⟩ := before.allocate_took thread sound isData
  rw [allocated] at heap allocations
  rw [allocations] at logged
  have same : (chunk, sizeofNode chosen) = (remote, size) := (List.cons.inj logged).1
  cases same
  rw [heap]
  exact took

/-- The plan for a full node that nobody else waits for. -/
theorem Confined.outgrows (confined : Confined source start) (guarded : Guarded source start history)
    (known : target < start.slist.count) (notHead : target ≠ SkipList.head) (typed : type.IsData)
    (isDone : draws.batch = .done) {level : Level} {replies : List (ConcurrencyRequest × Reply)}
    (followed : (start.fetchTwo thread target).followPlan source thread target key value draws false
      (planOf type 1) = ⟨true, replies, moved⟩)
    (outgrows : Outgrows source start thread target key value level type moved) :
    Posts start (moved.release thread target) ∧ Confined source (moved.release thread target) := by
  have sound : RemoteHeap.Sound source (start.fetchTwo thread target).heap := guarded.settled.sound
  have isMoved := congrArg PutOutcome.node followed
  cases outgrows with
  | grown notLast isData rewritten =>
      obtain ⟨chosen, isChosen, heap, allocations⟩ : ∃ chosen : LinkedNodeType, chosen.IsData ∧
          moved.heap = ((start.fetchTwo thread target).allocate source thread (sizeofNode chosen)).2.heap ∧
          moved.allocations =
            ((start.fetchTwo thread target).allocate source thread (sizeofNode chosen)).2.allocations := by
        have eager := @eagerMorph_allocates source _ (start.fetchTwo thread target) thread target key value _ false
          isDone
        cases type with
        | type10 =>
            have morph := @morphPath_allocates _ source draws (start.fetchTwo thread target) thread target key value
              isDone _ rfl
            have isMorph : ((start.fetchTwo thread target).morphPath source thread target key value draws
              false).node = moved := isMoved
            rw [isMorph] at morph
            exact ⟨_, morphNode_isData _, morph⟩
        | type12 | type14 =>
            have isEager : ((start.fetchTwo thread target).eagerMorph source thread target key value draws
              false).node = moved := isMoved
            rw [isEager] at eager
            exact ⟨_, LinkedNodeType.isData16, eager⟩
        | type16 => exact absurd rfl notLast
        | typeHead => exact absurd typed id
        | typeVar => exact absurd typed id
        | notSet => exact absurd typed id
      exact confined.grown guarded known notHead rewritten
        (took_of_allocate sound isChosen heap allocations rewritten.allocations)
  | halved isLast isHalves split =>
      subst isLast
      have allocates := @splitPath_allocates source _ (start.fetchTwo thread target) thread target key value _ false
        isDone 9 .type10 .type10 .type10 .type10
      have isSplit : ((start.fetchTwo thread target).splitPath source thread target key value draws 9 .type10
        .type10 .type10 .type10 false).node = moved := isMoved
      rw [isSplit] at allocates
      exact confined.halved guarded known notHead split
        (split.took sound LinkedNodeType.isData10 LinkedNodeType.isData10 allocates.1 allocates.2)

omit [Digest] in
/-- Taking the locks posts nothing. -/
theorem tryWinForInsert_logs (node : ComputeNode) (thread : ThreadId) (target : NodeId) :
    let won := ((node.drainPending thread).2.tryWinForInsert thread target).2
    won.allocations = node.allocations ∧ won.posted = node.posted := by
  unfold tryWinForInsert
  simp only
  split
  next =>
    split
    next => exact ⟨rfl, rfl⟩
    next => exact ⟨rfl, rfl⟩
  next => exact ⟨rfl, rfl⟩

/-- A put after the flush. -/
theorem Confined.put_returned (confined : Confined source node) (guarded : Guarded source node history)
    (idle : Idle node) {flush : FlushDraws} (done : AllWritesDone flush draws) {result : Bool}
    (returned : node.put source thread key value flush draws = (.returned result, after)) :
    Posts node after ∧ Confined source after := by
  have settled := guarded.settled
  obtain ⟨target, found, notHead⟩ := settled.put_routed returned
  have known := idle.closed.fuzzySearch_lt found
  have placed := settled.placed target known notHead
  obtain ⟨won, isWon, wonInsert⟩ := idle.wins thread placed.apart
  obtain ⟨allocations, posted⟩ := tryWinForInsert_logs node thread target
  simp only [isWon] at allocations posted
  have same := wonInsert.sameChain
  have wonSettled := settled.won known notHead wonInsert
  have wonGuarded := guarded.same wonSettled same.count same.dataNode same.type same.remote
  have wonConfined := confined.same same.count same.dataNode same.type same.remote wonInsert.heap allocations posted
  have wonKnown : target < won.slist.count := same.count.symm ▸ known
  have typed := (wonSettled.placed target wonKnown notHead).isData
  suffices kept : Posts won after ∧ Confined source after by
    obtain ⟨posts, afterConfined⟩ := kept
    refine ⟨⟨posts.fakeHead.trans (same.dataNode SkipList.head), ?_, ?_⟩, afterConfined⟩
    · rw [posts.headTag, same.imageOf]
    · rw [← posted]
      exact posts.posted
  unfold ComputeNode.put remotePutCall putDispatcher at returned
  simp only [settled.remotePut, if_true, found, if_pos placed.isData, isWon] at returned
  rw [putFor_eq _ _ _ _ _ _ _ placed.isData, ← same.type] at returned
  by_cases room : (won.fetchedReal thread target).next < (won.slist.nodes target).type.capacity
  · obtain ⟨late, isLate, _⟩ := @Settled.inPlace source won thread target _ _ key value draws wonSettled wonKnown
      notHead rfl wonInsert.requests done.write (planOf _) room
    rw [isLate] at returned
    cases returned
    exact wonConfined.inPlace wonGuarded wonKnown notHead wonInsert.requests done.write room isLate
  · have full := not_lt.mp room
    obtain ⟨replies, moved, followed, outgrows⟩ := @Settled.followPlan source won thread target _ _ key value draws
      wonSettled wonKnown notHead typed wonInsert.requests done.batch
    rw [putWon_full key value draws (planOf _) full, wonInsert.requests] at returned
    simp only [List.length_nil, Nat.zero_add] at returned
    rw [followed] at returned
    cases returned
    exact wonConfined.outgrows wonGuarded wonKnown notHead typed done.batch followed outgrows

/-- A put that flushes the local stage. -/
theorem Confined.put_flushes (confined : Confined source node) (staging : Staging source node) {pair : KV}
    {flush : FlushDraws} (done : AllWritesDone flush draws)
    (full : node.stage.quickPut pair.key.val pair.value.val = none) {result : Bool}
    (returned : node.put source thread pair.key.val pair.value.val flush draws = (.returned result, after)) :
    Posts node after ∧ Confined source after := by
  have unflushed := staging.unflushed
  obtain ⟨_, ordered, _⟩ := staging.picked full
  obtain ⟨larger, smaller, flushedNode, isFlush, flushed, took, allocations, posted⟩ := flush_took
    { node with stage := (node.stage.quickPutPickNode pair.key.val).1 } thread unflushed.sound
    unflushed.headTaken (node.stage.quickPutPickNode pair.key.val).2 pair.key.val pair.value.val done.larger
    done.smaller
  unfold ComputeNode.put at returned
  rw [if_neg (by rw [unflushed.staysLocal]; decide), quickPut_flushes unflushed full, isFlush] at returned
  cases returned
  obtain ⟨levels, _, _, nodes⟩ := @Flushed.twoNodes _ source _ after thread _ flush larger smaller pair flushed
    unflushed.slist ordered
  obtain ⟨slot, isSlot⟩ : ∃ slot, slot = (node.stage.quickPutPickNode pair.key.val).2 := ⟨_, rfl⟩
  rw [← isSlot] at nodes
  -- the larger chunk is behind the picked place, the smaller one behind the other
  have isLarger : (after.slist.nodes (slot.val + 1)).dataNode = larger ∧
      (after.slist.nodes (slot.val + 1)).type = .type12 := by
    have place := twoNodes_place nodes slot
    unfold flushedChunk flushedType at place
    rw [if_pos rfl, if_pos rfl] at place
    exact place
  have isSmaller : (after.slist.nodes ((1 - slot).val + 1)).dataNode = smaller ∧
      (after.slist.nodes ((1 - slot).val + 1)).type = .type10 := by
    have place := twoNodes_place nodes (1 - slot)
    have isOther : 1 - slot ≠ slot := by omega
    unfold flushedChunk flushedType at place
    rw [if_neg isOther, if_neg isOther] at place
    exact place
  have knownPlace : ∀ place : Fin 2, place.val + 1 < after.slist.count := by
    intro place
    rw [nodes.count]
    omega
  have headNode : after.fakeHead = node.fakeHead := nodes.headNode
  have sameHead : after.imageOf SkipList.head = node.imageOf SkipList.head := by
    unfold imageOf
    rw [nodes.headNode]
    exact flushed.otherRemote _ flushed.largerNotHead.symm flushed.smallerNotHead.symm
  have posts : Posts node after := by
    refine ⟨headNode, congrArg LinkedNode.type sameHead, [_, _], posted, ?_⟩
    intro write isMember
    rcases List.mem_cons.mp isMember with small | large
    · rw [small]
      exact ⟨_, knownPlace (1 - slot), isSmaller.1.symm, Or.inl (by rw [isSmaller.2])⟩
    · rw [List.mem_singleton.mp large]
      exact ⟨_, knownPlace slot, isLarger.1.symm, Or.inl (by rw [isLarger.2])⟩
  refine ⟨posts, confined.step posts ?_ ?_ ?_ ?_⟩
  · rw [allocations]
    exact confined.granted.takeTwo took
  · rw [allocations]
    exact fun _ isMember => List.mem_cons_of_mem _ (List.mem_cons_of_mem _ isMember)
  · rw [nodes.count]
    decide
  · intro id isKnown
    rw [nodes.count] at isKnown
    rw [allocations]
    by_cases isHead : id = SkipList.head
    · have atHead := confined.named SkipList.head confined.headKnown
      rw [show (node.slist.nodes SkipList.head).type = .typeHead by rw [unflushed.slist]; rfl] at atHead
      rw [isHead, nodes.headNode, nodes.headType]
      exact List.mem_cons_of_mem _ (List.mem_cons_of_mem _ atHead)
    · have positive : 0 < id := Nat.pos_of_ne_zero isHead
      have place : id = slot.val + 1 ∨ id = (1 - slot).val + 1 := by omega
      rcases place with isPicked | isOther
      · rw [isPicked, isLarger.1, isLarger.2]
        exact List.mem_cons_self
      · rw [isOther, isSmaller.1, isSmaller.2]
        exact List.mem_cons_of_mem _ List.mem_cons_self

/-- A put of a run. -/
theorem Seals.put_posts (seals : Seals source node history) (confined : Confined source node) (idle : Idle node)
    {pair : KV} {flush : FlushDraws} (done : AllWritesDone flush draws) {result : Bool}
    (returned : node.put source thread pair.key.val pair.value.val flush draws = (.returned result, after)) :
    Posts node after ∧ Confined source after := by
  cases seals with
  | staging staging =>
      cases stays : node.stage.quickPut pair.key.val pair.value.val with
      | some stage =>
          have staysLocal := staging.unflushed.staysLocal
          unfold ComputeNode.put at returned
          rw [if_neg (by rw [staysLocal]; decide), quickPut_stays staysLocal stays] at returned
          cases returned
          refine ⟨⟨rfl, rfl, [], rfl, ?_⟩, confined.same rfl (fun _ => rfl) (fun _ => rfl) rfl rfl rfl rfl⟩
          intro write isMember
          cases isMember
      | none => exact confined.put_flushes staging done stays returned
  | guarded guarded => exact confined.put_returned guarded idle done returned

end Put

/-! ### Runs -/

section Run

variable [Digest] {history : NodeId → SealedNode}

omit [Digest] in
/-- The only chunk of an initialized compute node is that of its fake head. -/
theorem confined_initialized (source : SegmentSource) (main : ThreadId) (memory : RemotePointer → LinkedNode)
    (buffers : ThreadId → Nat → LinkedNode) (heap : Fin 2 → LinkedNode) :
    Confined source (initialized source main memory buffers heap) := by
  obtain ⟨chunk, after, allocated, took⟩ := (RemoteHeap.sound_empty source).allocate main
    (sizeofNode .typeHead) (getClass_spec (by decide) (by decide)).1
  have fits : sizeofNode .typeHead ≤ (getClass (sizeofNode .typeHead)).size := by decide
  have none : Granted source RemoteHeap.empty [] :=
    ⟨List.Pairwise.nil, fun _ isMember => absurd isMember List.not_mem_nil⟩
  have granted : Granted source after [(chunk, sizeofNode .typeHead)] := by
    apply none.take
    refine ⟨took.sound, took.shrinks, fun address low high => ?_⟩
    exact took.chunk address low (high.trans_le (Nat.add_le_add_left fits chunk))
  unfold initialized
  simp only [allocated]
  refine ⟨granted, ?_, Nat.one_pos, fun _ isMember => absurd isMember List.not_mem_nil⟩
  intro id known
  change id < 1 at known
  rw [Nat.lt_one_iff.mp known]
  exact List.mem_cons_self

omit [Digest] in
theorem Confined.of_readsOnly (confined : Confined source before) (reads : ReadsOnly before after) :
    Confined source after := by
  rcases reads with ⟨buffers, contexts, isAfter⟩
  rw [isAfter]
  exact confined.same rfl (fun _ => rfl) (fun _ => rfl) rfl rfl rfl rfl

omit [Digest] in
theorem Confined.calibrateNext (confined : Confined source node) : Confined source node.calibrateNext := by
  unfold ComputeNode.calibrateNext
  split
  next => exact confined
  next entry rest _ =>
    have nodes := SkipList.sameNodes_calibrate node.slist entry.newNode entry.level
    exact confined.same nodes.count nodes.dataNode nodes.type rfl rfl rfl rfl

theorem SealRun.confined (run : SealRun source thread node history) : Confined source node := by
  induction run with
  | initialized main memory buffers heap => exact confined_initialized source main memory buffers heap
  | put earlier pair done returned inductionHypothesis =>
      exact (earlier.seals.put_posts inductionHypothesis earlier.clientRun.idle done returned).2
  | @get node after _ _ key result returned inductionHypothesis =>
      have reads := readsOnly_get node thread key.val
      rw [returned] at reads
      exact inductionHypothesis.of_readsOnly reads
  | @scan node after _ _ key count total returned inductionHypothesis =>
      have reads := readsOnly_scan node thread key.val count
      rw [returned] at reads
      exact inductionHypothesis.of_readsOnly reads
  | calibrate _ inductionHypothesis => exact inductionHypothesis.calibrateNext

/-- A write from the start of a chunk that touches no byte behind it, and none of another chunk. -/
def StaysInside (node : ComputeNode) (write : RemotePointer × Nat) : Prop :=
  ∃ chunk ∈ node.allocations, chunk.1 = write.1 ∧ ∀ address, Covers write address →
    Covers chunk address ∧ ∀ other ∈ node.allocations, other ≠ chunk → ¬ Covers other address

omit [Digest] in
theorem Confined.staysInside (confined : Confined source node)
    (untagged : sizeofNode (node.imageOf SkipList.head).type ≤ sizeofNode .typeHead)
    (headType : (node.slist.nodes SkipList.head).type = .typeHead) :
    ∀ write ∈ node.posted, node.StaysInside write := by
  intro write isMember
  obtain ⟨size, isChunk, fits⟩ : ∃ size, (write.1, size) ∈ node.allocations ∧ write.2 ≤ size := by
    rcases confined.posted write isMember with inChunk | atHead
    · exact ⟨write.2, inChunk, le_rfl⟩
    · have named := confined.named SkipList.head confined.headKnown
      rw [headType] at named
      rw [atHead]
      exact ⟨_, named, untagged⟩
  refine ⟨_, isChunk, rfl, ?_⟩
  intro address inside
  have inChunk : Covers (write.1, size) address :=
    ⟨inside.1, inside.2.trans_le (Nat.add_le_add_left fits _)⟩
  refine ⟨inChunk, fun other isOther differ => ?_⟩
  exact confined.granted.apart.forall isChunk isOther differ.symm address inChunk

/-- The search layer keeps its fake head. -/
theorem SealRun.headType (run : SealRun source thread node history) :
    (node.slist.nodes SkipList.head).type = .typeHead := by
  cases run.seals with
  | staging staging =>
      rw [staging.unflushed.slist]
      rfl
  | guarded guarded => exact guarded.settled.headType

/-- Every write of a run stays inside the chunk that it is sent to, and a put writes to no chunk but
those that the search nodes name when it returns. -/
theorem writes_stay_inside (run : SealRun source thread node history)
    (untagged : sizeofNode (node.imageOf SkipList.head).type ≤ sizeofNode .typeHead) :
    (∀ write ∈ node.posted, node.StaysInside write) ∧
      ∀ (pair : KV) (flush : FlushDraws) (draws : PutDraws) (result : Bool) (after : ComputeNode),
        AllWritesDone flush draws →
        node.put source thread pair.key.val pair.value.val flush draws = (.returned result, after) →
          ∀ write ∈ gained node.posted after.posted, after.StaysInside write ∧
            ∃ id < after.slist.count, (after.slist.nodes id).dataNode = write.1 := by
  refine ⟨run.confined.staysInside untagged run.headType, ?_⟩
  intro pair flush draws result after done returned write isNew
  obtain ⟨posts, confined⟩ := run.seals.put_posts run.confined run.clientRun.idle done returned
  obtain ⟨new, isPosted, isNamed⟩ := posts.posted
  rw [isPosted, gained_append] at isNew
  constructor
  · apply confined.staysInside
    · rw [posts.headTag]
      exact untagged
    · exact (run.put pair done returned).headType
    · rw [isPosted]
      exact List.mem_append_left _ isNew
  · obtain ⟨id, known, place, _⟩ := isNamed write isNew
    exact ⟨id, known, place.symm⟩

end Run

section Trace

attribute [local instance] Digests.source

/-- The flush and the thirteenth put, over zeroed memory. -/
theorem thirteen_puts_stay_inside :
    ∃ node history, sealThirteen = some (node, history) ∧ node.posted.length = 3 ∧
      ∀ write ∈ node.posted, node.StaysInside write := by
  have facts : sealThirteen.map (fun state =>
      decide (state.1.posted.length = 3 ∧
        sizeofNode (state.1.imageOf SkipList.head).type ≤ sizeofNode .typeHead)) = some true := by
    decide +kernel
  obtain ⟨state, reached, isState⟩ := Option.map_eq_some_iff.mp facts
  obtain ⟨three, untagged⟩ := of_decide_eq_true isState
  have run := SealRun.sealAll (.initialized 0 (fun _ => .zeroed) (fun _ _ => .zeroed) fun _ => .zeroed) reached
  exact ⟨state.1, state.2, reached, three, (writes_stay_inside run untagged).1⟩

end Trace

end DiStore.Cluster.ComputeNode
