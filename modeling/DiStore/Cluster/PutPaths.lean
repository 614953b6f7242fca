import DiStore.Cluster.WellFormed
import DiStore.Cluster.WriteFailures

/-!
Contract: the paths of a put into a large data node, from a well-formed store.

Owns: the chunks a put allocates as whole regions, the images it leaves in place, after
an eager morph and after a split, and that each path adds the put's record to the
contents unless its key has one.

Does not own: how the locks are won (`Cluster.PutRefinement`), and requests handed over
by other threads (`Cluster.HandoverDurable`).
-/

set_option autoImplicit false

namespace DiStore.Cluster.ComputeNode

open DiStore.Concurrency DiStore.DataLayer DiStore.Library DiStore.Memory DiStore.SearchLayer

variable {source : SegmentSource} {node start before after : ComputeNode} {thread : ThreadId}
variable {target : NodeId} {earlier later : List NodeId}

/-! ### The chunks a put allocates -/

/-- `allocate` for a data node takes a chunk of the node's size. -/
theorem allocate_took (node : ComputeNode) (thread : ThreadId) (sound : RemoteHeap.Sound source node.heap)
    {type : LinkedNodeType} (isData : type.IsData) :
    ∃ remote heap, node.allocate source thread (sizeofNode type) =
        (remote, { node with
          heap := heap
          allocations := (remote, sizeofNode type) :: node.allocations }) ∧
      RemoteHeap.Took source node.heap heap remote (sizeofNode type) := by
  obtain ⟨large, small⟩ := sizeofNode_fits type isData
  obtain ⟨remote, heap, allocated, took⟩ := allocate_spec node thread sound large small
  have atLeast := (getClass_spec large small).2
  refine ⟨remote, heap, allocated, took.sound, took.shrinks, fun address low high => ?_⟩
  exact took.chunk address low (high.trans_le (Nat.add_le_add_left atLeast remote))

theorem writeBackMorphed_allocates (node : ComputeNode) (thread : ThreadId) (target : NodeId) :
    let allocated := (node.allocate source thread (sizeofNode (node.buffers thread 1).type)).2
    (node.writeBackMorphed source thread target .done).2.heap = allocated.heap ∧
      (node.writeBackMorphed source thread target .done).2.allocations = allocated.allocations := by
  unfold writeBackMorphed postBatchWrite
  simp only [if_true]
  exact ⟨rfl, rfl⟩

theorem writeBackSplitted_allocates (node : ComputeNode) (thread : ThreadId) (target : NodeId)
    (leftArgument rightArgument : LinkedNodeType) :
    let first := (node.allocate source thread (sizeofNode leftArgument)).2
    let allocated := (first.allocate source thread (sizeofNode rightArgument)).2
    let after := (node.writeBackSplitted source thread target leftArgument rightArgument .done).2
    after.heap = allocated.heap ∧ after.allocations = allocated.allocations := by
  unfold writeBackSplitted postBatchWrite
  simp only [if_true]
  exact ⟨rfl, rfl⟩

section Allocations

variable [Digest] (node : ComputeNode) (thread : ThreadId) (target : NodeId) (key value : Str)
variable {draws : PutDraws} (done : Bool)

theorem eagerMorph_allocates (isDone : draws.batch = .done) :
    let allocated := (node.allocate source thread (sizeofNode .type16)).2
    let after := (node.eagerMorph source thread target key value draws done).node
    after.heap = allocated.heap ∧ after.allocations = allocated.allocations := by
  unfold eagerMorph
  rw [isDone]
  generalize node.eagerWork thread target key value done = work
  have written := @writeBackMorphed_allocates source
    (node.staged thread work.pred (sealedAs .type16 work.real) work.requests) thread target
  have isReal : (node.staged thread work.pred (sealedAs .type16 work.real) work.requests).buffers thread 1 =
      sealedAs .type16 work.real := by
    simp [staged, setSlot, setRequests]
  rw [isReal] at written
  simp only
  split
  next => exact written
  next => exact written

theorem splitPath_allocates (isDone : draws.batch = .done) (leftCap : Nat)
    (leftType rightType leftArgument rightArgument : LinkedNodeType) :
    let first := (node.allocate source thread (sizeofNode leftArgument)).2
    let allocated := (first.allocate source thread (sizeofNode rightArgument)).2
    let after := (node.splitPath source thread target key value draws leftCap leftType rightType
      leftArgument rightArgument done).node
    after.heap = allocated.heap ∧ after.allocations = allocated.allocations := by
  have halvedHeap : (node.outOfPlaceSplitNode thread target key value leftCap done).2.2.heap = node.heap := rfl
  have halvedLog : (node.outOfPlaceSplitNode thread target key value leftCap done).2.2.allocations =
      node.allocations := rfl
  unfold splitPath
  rw [isDone]
  generalize node.outOfPlaceSplitNode thread target key value leftCap done = halved at halvedHeap halvedLog ⊢
  obtain ⟨ready, isReady⟩ : ∃ ready, ready = (halved.2.2.setSlot thread 1 (sealedAs leftType
      (halved.2.2.buffers thread 1))).setSlot thread 2 (sealedAs rightType ((halved.2.2.setSlot thread 1
        (sealedAs leftType (halved.2.2.buffers thread 1))).buffers thread 2)) := ⟨_, rfl⟩
  have sameHeap : ready.heap = node.heap := by
    rw [isReady]
    exact halvedHeap
  have sameLog : ready.allocations = node.allocations := by
    rw [isReady]
    exact halvedLog
  have written := @writeBackSplitted_allocates source ready thread target leftArgument rightArgument
  simp only [← isReady, asyncUpdate_eq]
  simp only [allocate, sameHeap, sameLog] at written ⊢
  split
  next => exact written
  next => exact written

end Allocations

variable {pred real left right : LinkedNode} {requests : List ConcurrencyRequest}

/-- The chunk a node moves to is the one allocated. -/
theorem Rewritten.took {remote : RemotePointer}
    (rewritten : Rewritten source before thread target pred real requests remote after)
    (sound : RemoteHeap.Sound source before.heap) (isData : real.type.IsData)
    (heap : after.heap = (before.allocate source thread (sizeofNode real.type)).2.heap)
    (allocations : after.allocations = (before.allocate source thread (sizeofNode real.type)).2.allocations) :
    RemoteHeap.Took source before.heap after.heap remote (sizeofNode real.type) := by
  obtain ⟨chunk, allocatedHeap, allocated, took⟩ := before.allocate_took thread sound isData
  rw [allocated] at heap allocations
  rw [rewritten.allocations] at allocations
  have sameChunk : remote = chunk := congrArg Prod.fst (List.cons.inj allocations).1
  rw [heap, sameChunk]
  exact took

/-- The two chunks of a split come from the reserve, and share no address. -/
structure TookTwo (source : SegmentSource) (before after : RemoteHeap) (l r : RemotePointer)
    (leftSize rightSize : Nat) : Prop where
  left : RemoteHeap.Took source before after l leftSize
  right : RemoteHeap.Took source before after r rightSize
  apart : ∀ address, l ≤ address → address < l + leftSize → ¬ (r ≤ address ∧ address < r + rightSize)

theorem SplitInTwo.took {anchor : Str} {leftArgument rightArgument : LinkedNodeType} {level : Level}
    {l r : RemotePointer}
    (split : SplitInTwo source before thread target pred left right anchor leftArgument rightArgument
      requests level l r after)
    (sound : RemoteHeap.Sound source before.heap) (leftData : leftArgument.IsData)
    (rightData : rightArgument.IsData)
    (heap : after.heap = ((before.allocate source thread (sizeofNode leftArgument)).2.allocate source thread
      (sizeofNode rightArgument)).2.heap)
    (allocations : after.allocations = ((before.allocate source thread (sizeofNode leftArgument)).2.allocate
      source thread (sizeofNode rightArgument)).2.allocations) :
    TookTwo source before.heap after.heap l r (sizeofNode leftArgument) (sizeofNode rightArgument) := by
  obtain ⟨first, firstHeap, allocatedFirst, tookFirst⟩ := before.allocate_took thread sound leftData
  rw [allocatedFirst] at heap allocations
  obtain ⟨second, secondHeap, allocatedSecond, tookSecond⟩ := allocate_took
    { before with heap := firstHeap, allocations := (first, sizeofNode leftArgument) :: before.allocations }
    thread tookFirst.sound rightData
  rw [allocatedSecond] at heap allocations
  rw [split.allocations] at allocations
  have isSecond : r = second := congrArg Prod.fst (List.cons.inj allocations).1
  have isFirst : l = first := congrArg Prod.fst (List.cons.inj (List.cons.inj allocations).2).1
  rw [heap, isFirst, isSecond]
  constructor
  · refine ⟨tookSecond.sound, fun address reserved => tookFirst.shrinks address (tookSecond.shrinks address
      reserved), fun address low high => ?_⟩
    obtain ⟨free, taken⟩ := tookFirst.chunk address low high
    exact ⟨free, fun reserved => taken (tookSecond.shrinks address reserved)⟩
  · exact tookSecond.after_of_shrinks tookFirst.shrinks
  · intro address low high inSecond
    exact (tookFirst.chunk address low high).2 (tookSecond.chunk address inSecond.1 inSecond.2).1

/-! ### What a put writes -/

/-- Levels do not change when a node is moved or retyped. -/
theorem Moved.ordered {first second : SkipList} {remote : RemotePointer} {type : LinkedNodeType}
    {levels : Nat → List NodeId} (moved : Moved first second target remote type)
    (ordered : first.Ordered levels) : second.Ordered levels :=
  ordered.congr (fun level node _ => moved.forward level node) (fun node _ => moved.anchor node)
    moved.count.ge moved.currentLevel

/-- The new node is linked on the bottom level, right behind the one that was split. -/
theorem SplitInTwo.inserted {anchor : Str} {leftArgument rightArgument : LinkedNodeType} {level : Level}
    {l r : RemotePointer} {levels : Nat → List NodeId}
    (split : SplitInTwo source before thread target pred left right anchor leftArgument rightArgument
      requests level l r after)
    (ordered : before.slist.Ordered levels) (divided : levels 0 = earlier ++ target :: later)
    (low : ∀ other ∈ earlier ++ [target], before.slist.anchorOf other ≤ anchor)
    (high : ∀ other ∈ later, anchor ≤ before.slist.anchorOf other) :
    (after.release thread target).slist.Ordered
      (SkipList.insertedLevels levels (fun _ => earlier ++ [target]) (fun _ => later) [0] before.slist.count) := by
  obtain ⟨middle, first, second⟩ := split.linked
  have inMiddle := first.ordered ordered
  have sameAnchor : ∀ other, middle.anchorOf other = before.slist.anchorOf other := first.anchor
  have apart : levels 0 = (earlier ++ [target]) ++ later := by
    rw [divided, List.append_assoc]
    rfl
  obtain ⟨_, linked, _⟩ := inMiddle.linkBehind anchor r right.type apart List.getLastD_concat
    (fun other isMember => (sameAnchor other).trans_le (low other isMember))
    (fun other isMember => (high other isMember).trans_eq (sameAnchor other).symm)
  rw [first.count] at linked
  exact (second.release thread).ordered linked

theorem SplitInTwo.ordered {anchor : Str} {leftArgument rightArgument : LinkedNodeType} {level : Level}
    {l r : RemotePointer} {levels : Nat → List NodeId}
    (split : SplitInTwo source before thread target pred left right anchor leftArgument rightArgument
      requests level l r after)
    (ordered : before.slist.Ordered levels) (divided : levels 0 = earlier ++ target :: later)
    (low : ∀ other ∈ earlier ++ [target], before.slist.anchorOf other ≤ anchor)
    (high : ∀ other ∈ later, anchor ≤ before.slist.anchorOf other) :
    ∃ added, (after.release thread target).slist.Ordered added ∧
      added 0 = earlier ++ ([target, before.slist.count] ++ later) := by
  refine ⟨_, split.inserted ordered divided low high, ?_⟩
  rw [SkipList.insertedLevels, if_pos (List.mem_singleton.mpr rfl), List.append_assoc]
  rfl

variable [Digest]

/-- A whole data node written to its chunk. -/
theorem intact_of_written {searchNode : NodeId} {type : LinkedNodeType} {image old : LinkedNode}
    (isData : type.IsData) (isType : (after.slist.nodes searchNode).type = type)
    (written : after.imageOf searchNode = LinkedNode.overlay (sizeofNode type) image old)
    (tag : image.type = type) (fits : image.next ≤ type.capacity) (marked : image.Fingerprinted) :
    after.Intact searchNode ∧ (after.imageOf searchNode).records = image.records := by
  have covered := pairsOffset_le_sizeofNode isData
  have nonempty := sizeofNode_ne_zero isData
  have entries : (after.imageOf searchNode).entries = image.entries := by
    rw [written]
    apply LinkedNode.entries_overlay
    omega
  refine ⟨⟨?_, ?_, ?_, ?_⟩, records_of_entries entries⟩
  · rw [isType]
    exact isData
  · rw [isType, written, LinkedNode.overlay_type nonempty]
    exact tag
  · rw [isType, next_of_entries entries]
    exact fits
  · exact fingerprinted_of_entries entries marked

namespace WellFormed

variable (wellFormed : WellFormed source before)

include wellFormed

/-- The predecessor's image is written back as it was read, but for its link; a fake head
without a tag is not written at all. -/
theorem pred_image (isMember : target ∈ before.chain) (thread : ThreadId) (rlink : RemotePointer) :
    ∃ link, LinkedNode.overlay (sizeofNode (before.fetchedPred thread target).type)
        { before.fetchedPred thread target with rlink := rlink } (before.remote (before.predData target)) =
      { before.imageOf (before.backwardOf target) with rlink := link } := by
  obtain ⟨predMember, _⟩ := wellFormed.backwardOf_mem isMember
  have relinked : (before.imageOf (before.backwardOf target)).type =
      (before.slist.nodes (before.backwardOf target)).type →
      sizeofNode (before.slist.nodes (before.backwardOf target)).type ≠ 0 →
      LinkedNode.overlay (sizeofNode (before.fetchedPred thread target).type)
          { before.fetchedPred thread target with rlink := rlink } (before.remote (before.predData target)) =
        { before.imageOf (before.backwardOf target) with rlink := rlink } := by
    intro tag nonempty
    have isType : (before.fetchedPred thread target).type =
        (before.slist.nodes (before.backwardOf target)).type :=
      (LinkedNode.overlay_type nonempty).trans tag
    rw [isType]
    exact LinkedNode.overlay_relinked nonempty _ _ _
  rcases List.mem_cons.mp predMember with isHead | inChain
  · have headType := wellFormed.headType
    have headTag := wellFormed.headTag
    rw [← isHead] at headType headTag
    have nonempty : sizeofNode (before.slist.nodes (before.backwardOf target)).type ≠ 0 := by
      rw [headType]
      decide
    rcases headTag with notSet | tagged
    · have isType : (before.fetchedPred thread target).type = .notSet :=
        (LinkedNode.overlay_type nonempty).trans notSet
      rw [isType]
      exact ⟨_, LinkedNode.overlay_empty⟩
    · exact ⟨rlink, relinked (tagged.trans headType.symm) nonempty⟩
  · have intact := wellFormed.intact _ inChain
    exact ⟨rlink, relinked intact.tag (sizeofNode_ne_zero intact.isData)⟩

/-- Once the predecessor is written, every image is as before but for links. -/
theorem relinked_images (isMember : target ∈ before.chain) (thread : ThreadId) (rlink : RemotePointer)
    {searchNode : NodeId} (isOld : searchNode ∈ SkipList.head :: before.chain) :
    ∃ link, Function.update before.remote (before.predData target)
        (LinkedNode.overlay (sizeofNode (before.fetchedPred thread target).type)
          { before.fetchedPred thread target with rlink := rlink } (before.remote (before.predData target)))
        (before.slist.nodes searchNode).dataNode = { before.imageOf searchNode with rlink := link } := by
  obtain ⟨predMember, _⟩ := wellFormed.backwardOf_mem isMember
  by_cases isPred : searchNode = before.backwardOf target
  · obtain ⟨link, image⟩ := wellFormed.pred_image isMember thread rlink
    refine ⟨link, ?_⟩
    rw [isPred, ← image]
    exact Function.update_self _ _ _
  · have apart : (before.slist.nodes searchNode).dataNode ≠ before.predData target :=
      wellFormed.dataNode_ne isOld predMember isPred
    rw [Function.update_of_ne apart]
    exact ⟨_, rfl⟩

/-- A step that moves, retypes or rewrites one node. -/
theorem rebuilt_moved (divided : before.chain = earlier ++ target :: later) {remote : RemotePointer}
    {type : LinkedNodeType} (moved : Moved before.slist after.slist target remote type)
    (sound : RemoteHeap.Sound source after.heap)
    (shrinks : ∀ address, RemoteHeap.Reserve source after.heap address →
      RemoteHeap.Reserve source before.heap address)
    (taken : ∀ address, after.InRegion target address → ¬ RemoteHeap.Reserve source after.heap address)
    (origin : ∀ address, after.InRegion target address →
      before.InRegion target address ∨ RemoteHeap.Reserve source before.heap address)
    (images : ∀ searchNode ∈ SkipList.head :: before.chain, searchNode ≠ target →
      ∃ link, after.remote (before.slist.nodes searchNode).dataNode =
        { before.imageOf searchNode with rlink := link })
    (intact : after.Intact target) : Rebuilt source before after target earlier [target] later := by
  obtain ⟨levels, ordered⟩ := wellFormed.linked
  have isMember := mem_of_divided divided
  constructor
  case divided => exact divided
  case linked =>
    refine ⟨levels, moved.ordered ordered, ?_⟩
    rw [← chain_of_ordered ordered, divided]
    rfl
  case isTarget => exact List.mem_cons_self
  case sameAnchor => exact moved.anchor target
  case kept =>
    intro searchNode isKept isOther
    have sameData : (after.slist.nodes searchNode).dataNode = (before.slist.nodes searchNode).dataNode := by
      rw [moved.dataNode, if_neg isOther]
    obtain ⟨link, image⟩ := images searchNode isKept isOther
    refine ⟨moved.anchor searchNode, sameData, ?_, moved.backward searchNode, link, ?_⟩
    · rw [moved.type, if_neg isOther]
    · rw [imageOf, sameData]
      exact image
  case intact =>
    intro searchNode inMiddle
    rw [List.mem_singleton.mp inMiddle]
    exact intact
  case backward =>
    intro searchNode inMiddle
    rw [List.mem_singleton.mp inMiddle, moved.backward]
    obtain ⟨pred, isPred, place⟩ := wellFormed.backward target isMember
    refine ⟨pred, isPred, ?_⟩
    rw [SkipList.anchorOf, SkipList.anchorOf, moved.anchor]
    exact place
  case sound => exact sound
  case shrinks => exact shrinks
  case taken =>
    intro searchNode inMiddle
    rw [List.mem_singleton.mp inMiddle]
    exact taken
  case origin =>
    intro searchNode inMiddle
    rw [List.mem_singleton.mp inMiddle]
    exact origin
  case inner =>
    intro first inFirst second inSecond differ
    rw [List.mem_singleton.mp inFirst, List.mem_singleton.mp inSecond] at differ
    exact absurd rfl differ

/-- The anchors before a node are smaller than its own. -/
theorem anchor_le (divided : before.chain = earlier ++ target :: later) {other : NodeId}
    (isMember : other ∈ earlier ++ [target]) :
    before.slist.anchorOf other ≤ before.slist.anchorOf target := by
  have apart := wellFormed.partitioned.before
  rw [cells, divided, List.map_append, List.map_cons, List.pairwise_append] at apart
  rcases List.mem_append.mp isMember with isEarlier | isTarget
  · exact (apart.2.2 _ (List.mem_map_of_mem isEarlier) _ List.mem_cons_self).anchor.le
  · rw [List.mem_singleton.mp isTarget]

/-- A split whose halves fit their types and lie on both sides of the new anchor. -/
theorem rebuilt_split (divided : before.chain = earlier ++ target :: later) {moved : ComputeNode}
    {anchor : Str} {leftType rightType : LinkedNodeType} {level : Level} {l r : RemotePointer}
    (split : SplitInTwo source (before.fetchTwo thread target) thread target
      (before.fetchedPred thread target) (sealedAs leftType left) (sealedAs rightType right) anchor leftType
      rightType requests level l r moved)
    (took : TookTwo source before.heap moved.heap l r (sizeofNode leftType) (sizeofNode rightType))
    (leftData : leftType.IsData) (rightData : rightType.IsData)
    (leftFits : left.next ≤ leftType.capacity) (rightFits : right.next ≤ rightType.capacity)
    (leftMarked : left.Fingerprinted) (rightMarked : right.Fingerprinted)
    (between : before.slist.anchorOf target < anchor)
    (next : ∀ other ∈ later, anchor < before.slist.anchorOf other) :
    ∃ after, after = moved.release thread target ∧
      Rebuilt source before after target earlier [target, before.slist.count] later ∧
      (after.imageOf target).records = left.records ∧
      (after.imageOf before.slist.count).records = right.records ∧
      after.slist.anchorOf before.slist.count = anchor := by
  have isMember := mem_of_divided divided
  have isKnown : target ∈ SkipList.head :: before.chain := List.mem_cons_of_mem _ isMember
  have notNew : ∀ {searchNode : NodeId}, searchNode ∈ SkipList.head :: before.chain →
      searchNode ≠ before.slist.count := fun isOld => (wellFormed.known isOld).ne
  obtain ⟨after, isAfter⟩ : ∃ after, after = moved.release thread target := ⟨_, rfl⟩
  have nodes := split.released (notNew isKnown)
  rw [← isAfter] at nodes
  change SplitNodes before.slist after.slist target anchor l r leftType rightType at nodes
  obtain ⟨leftNode, leftTyped⟩ := nodes.left
  obtain ⟨rightNode, rightTyped, rightAnchor, rightBackward⟩ := nodes.right
  have memory : after.remote = moved.remote := by
    rw [isAfter]
    rfl
  have heap : after.heap = moved.heap := by
    rw [isAfter]
    rfl
  have leftWritten : after.imageOf target = LinkedNode.overlay (sizeofNode leftType)
      { sealedAs leftType left with rlink := r } (before.remote l) := by
    unfold imageOf
    rw [leftNode, memory, split.memory, Function.update_of_ne split.differ, Function.update_self]
    rfl
  have rightWritten : after.imageOf before.slist.count = LinkedNode.overlay (sizeofNode rightType)
      { sealedAs rightType right with rlink := (sealedAs leftType left).rlink } (before.remote r) := by
    unfold imageOf
    rw [rightNode, memory, split.memory, Function.update_self]
    rfl
  obtain ⟨leftIntact, leftRecords⟩ :=
    intact_of_written leftData leftTyped leftWritten rfl leftFits leftMarked
  obtain ⟨rightIntact, rightRecords⟩ :=
    intact_of_written rightData rightTyped rightWritten rfl rightFits rightMarked
  have leftChunk : ∀ address, after.InRegion target address →
      l ≤ address ∧ address < l + sizeofNode leftType := by
    intro address inRegion
    unfold InRegion at inRegion
    rw [leftNode, leftTyped] at inRegion
    exact inRegion
  have rightChunk : ∀ address, after.InRegion before.slist.count address →
      r ≤ address ∧ address < r + sizeofNode rightType := by
    intro address inRegion
    unfold InRegion at inRegion
    rw [rightNode, rightTyped] at inRegion
    exact inRegion
  have inChunk : ∀ searchNode ∈ [target, before.slist.count], ∀ address, after.InRegion searchNode address →
      RemoteHeap.Reserve source before.heap address ∧ ¬ RemoteHeap.Reserve source moved.heap address := by
    intro searchNode inMiddle address inRegion
    rcases List.mem_cons.mp inMiddle with isTarget | isNew
    · rw [isTarget] at inRegion
      obtain ⟨lowest, highest⟩ := leftChunk address inRegion
      exact took.left.chunk address lowest highest
    · rw [List.mem_singleton.mp isNew] at inRegion
      obtain ⟨lowest, highest⟩ := rightChunk address inRegion
      exact took.right.chunk address lowest highest
  have sameAnchor : after.slist.anchorOf target = before.slist.anchorOf target :=
    (nodes.others target (notNew isKnown)).1
  refine ⟨after, isAfter, ?_, leftRecords, rightRecords, rightAnchor⟩
  constructor
  case divided => exact divided
  case linked =>
    obtain ⟨levels, ordered⟩ := wellFormed.linked
    have isChain : levels 0 = earlier ++ target :: later := by
      rw [← chain_of_ordered ordered, divided]
    rw [isAfter]
    exact split.ordered ordered isChain
      (fun other isBefore => (wellFormed.anchor_le divided isBefore).trans between.le)
      (fun other isLater => (next other isLater).le)
  case isTarget => exact List.mem_cons_self
  case sameAnchor => exact sameAnchor
  case kept =>
    intro searchNode isOld isOther
    obtain ⟨anchorSame, backwardSame, same⟩ := nodes.others searchNode (notNew isOld)
    obtain ⟨dataSame, typeSame⟩ := same isOther
    have free := wellFormed.dataNode_taken isOld
    have notLeft : (before.slist.nodes searchNode).dataNode ≠ l := by
      intro isLeft
      rw [isLeft] at free
      exact free split.leftFresh.1
    have notRight : (before.slist.nodes searchNode).dataNode ≠ r := by
      intro isRight
      rw [isRight] at free
      exact free split.rightFresh.1
    refine ⟨anchorSame, dataSame, typeSame, backwardSame, ?_⟩
    unfold imageOf
    rw [dataSame, memory, split.memory, Function.update_of_ne notRight, Function.update_of_ne notLeft]
    exact wellFormed.relinked_images isMember thread l isOld
  case intact =>
    intro searchNode inMiddle
    rcases List.mem_cons.mp inMiddle with isTarget | isNew
    · rw [isTarget]
      exact leftIntact
    · rw [List.mem_singleton.mp isNew]
      exact rightIntact
  case backward =>
    intro searchNode inMiddle
    rcases List.mem_cons.mp inMiddle with isTarget | isNew
    · rw [isTarget, (nodes.others target (notNew isKnown)).2.1, sameAnchor]
      exact wellFormed.backward target isMember
    · rw [List.mem_singleton.mp isNew, rightBackward]
      refine ⟨target, rfl, Or.inr ⟨isMember, ?_⟩⟩
      change _ < (after.slist.nodes before.slist.count).anchor
      rw [rightAnchor]
      exact between
  case sound =>
    rw [heap]
    exact took.left.sound
  case shrinks =>
    rw [heap]
    exact took.left.shrinks
  case taken =>
    intro searchNode inMiddle address inRegion
    rw [heap]
    exact (inChunk searchNode inMiddle address inRegion).2
  case origin =>
    intro searchNode inMiddle address inRegion
    exact Or.inr (inChunk searchNode inMiddle address inRegion).1
  case inner =>
    have differ : ∀ address, after.InRegion target address → ¬ after.InRegion before.slist.count address := by
      intro address inLeft inRight
      obtain ⟨lowest, highest⟩ := leftChunk address inLeft
      exact took.apart address lowest highest (rightChunk address inRight)
    intro first inFirst second inSecond apart address inLeft inRight
    rcases List.mem_cons.mp inFirst with firstTarget | firstNew
    · rcases List.mem_cons.mp inSecond with secondTarget | secondNew
      · exact apart (firstTarget.trans secondTarget.symm)
      · rw [firstTarget] at inLeft
        rw [List.mem_singleton.mp secondNew] at inRight
        exact differ address inLeft inRight
    · rw [List.mem_singleton.mp firstNew] at inLeft
      rcases List.mem_cons.mp inSecond with secondTarget | secondNew
      · rw [secondTarget] at inRight
        exact differ address inRight inLeft
      · exact apart ((List.mem_singleton.mp firstNew).trans (List.mem_singleton.mp secondNew).symm)

/-- What a winner has fetched of its own node. -/
theorem real_fetched (isMember : target ∈ before.chain) (thread : ThreadId) :
    (before.fetchedReal thread target).type = (before.slist.nodes target).type ∧
      (before.fetchedReal thread target).records = (before.imageOf target).records ∧
      (before.fetchedReal thread target).next ≤ (before.slist.nodes target).type.capacity ∧
      (before.fetchedReal thread target).Fingerprinted := by
  have intact := wellFormed.intact target isMember
  have entries := @fetchedReal_entries before thread target intact.isData intact.fits
  refine ⟨?_, records_of_entries entries, ?_, fingerprinted_of_entries entries intact.marked⟩
  · exact (LinkedNode.overlay_type (sizeofNode_ne_zero intact.isData)).trans intact.tag
  · rw [next_of_entries entries]
    exact intact.fits

end WellFormed

/-- `store` adds its record to the records of a node. -/
theorem store_adds {image : LinkedNode} {capacity : Nat} (marked : image.Fingerprinted) (pair : KV)
    (room : image.next < capacity) :
    (image.store capacity pair.key.val pair.value.val).2.records = addNew keyOf pair image.records := by
  have sameKey : keyOf pair ∈ image.records.map keyOf ↔ pair.key ∈ image.records.map KV.key := by
    rw [List.mem_map, List.mem_map]
    constructor
    · intro isMember
      obtain ⟨held, isRecord, isKey⟩ := isMember
      exact ⟨held, isRecord, Subtype.ext isKey⟩
    · intro isMember
      obtain ⟨held, isRecord, isKey⟩ := isMember
      exact ⟨held, isRecord, congrArg Subtype.val isKey⟩
  rw [LinkedNode.records_store marked _ _ room, addNew]
  by_cases isKnown : pair.key ∈ image.records.map KV.key
  · rw [if_pos isKnown, if_pos (sameKey.mpr isKnown)]
  · rw [if_neg isKnown, if_neg (mt sameKey.mp isKnown)]

/-- The halves of an image and one more record. -/
structure Halves (image : LinkedNode) (pair : KV) (leftCap : Nat) (left right : LinkedNode) (anchor : Str) :
    Prop where
  perm : (left.records ++ right.records).Perm (addNew keyOf pair image.records)
  low : ∀ held ∈ left.records, keyOf held < anchor
  high : ∀ held ∈ right.records, anchor ≤ keyOf held
  anchorHeld : ∃ held ∈ right.records, keyOf held = anchor
  leftMarked : left.Fingerprinted
  rightMarked : right.Fingerprinted
  leftNext : left.next = leftCap
  rightNext : right.next ≤ image.next + 1 - leftCap

/-- The stack node of a split takes the record, and its halves lie on both sides of the
right one's anchor. -/
theorem splitBuffer_halves {image : LinkedNode} (marked : image.Fingerprinted) {pair : KV} {leftCap : Nat}
    (bounded : image.next ≤ 16) (room : leftCap < image.next)
    (distinct : ((addNew keyOf pair image.records).map keyOf).Nodup) (left right : LinkedNode) :
    let halves := splitBuffer ((bufferNode image).store bufferCapacity pair.key.val pair.value.val).2 left
      right leftCap
    Halves image pair leftCap halves.1 halves.2.1 halves.2.2 := by
  have copied : (bufferNode image).entries = image.entries := bufferNode_entries bounded
  have copyMarked := fingerprinted_of_entries copied marked
  have copyNext : (bufferNode image).next = image.next := rfl
  have copyRoom : (bufferNode image).next < bufferCapacity := by
    rw [copyNext, bufferCapacity]
    omega
  obtain ⟨buffer, isBuffer⟩ : ∃ buffer, buffer =
    ((bufferNode image).store bufferCapacity pair.key.val pair.value.val).2 := ⟨_, rfl⟩
  have records : buffer.records = addNew keyOf pair image.records := by
    rw [isBuffer, store_adds copyMarked pair copyRoom, records_of_entries copied]
  have bufferMarked := copyMarked.store bufferCapacity pair.key pair.value
  have bounds := LinkedNode.store_next_bounds (bufferNode image) bufferCapacity pair.key.val pair.value.val
  rw [← isBuffer, copyNext] at bounds
  rw [← isBuffer] at bufferMarked
  have distinctKeys : buffer.DistinctKeys := by
    rw [LinkedNode.distinctKeys_iff_records, records]
    have keys : (addNew keyOf pair image.records).map keyOf =
        ((addNew keyOf pair image.records).map KV.key).map Subtype.val := by
      rw [List.map_map]
      rfl
    rw [keys] at distinct
    exact distinct.of_map _
  rw [← isBuffer]
  have split := split_by_rank buffer left right leftCap distinctKeys (room.trans_le bounds.1)
  obtain ⟨anchored, isAnchored, isAnchor⟩ := split.anchorHeld
  have recordsPerm := split.entries.map Prod.snd
  rw [List.map_append, LinkedNode.entries_map_snd, LinkedNode.entries_map_snd, LinkedNode.entries_map_snd,
    records] at recordsPerm
  have total := split.total
  rw [split.leftNext] at total
  rw [LinkedNode.fingerprinted_iff_entries] at bufferMarked
  constructor
  case perm => exact recordsPerm
  case low =>
    intro held isHeld
    rw [← isAnchor]
    exact split.separated held isHeld anchored isAnchored
  case high => exact split.anchorLeast
  case anchorHeld => exact ⟨anchored, isAnchored, isAnchor⟩
  case leftMarked =>
    rw [LinkedNode.fingerprinted_iff_entries]
    intro entry isEntry
    exact bufferMarked entry (split.entries.mem_iff.mp (List.mem_append_left _ isEntry))
  case rightMarked =>
    rw [LinkedNode.fingerprinted_iff_entries]
    intro entry isEntry
    exact bufferMarked entry (split.entries.mem_iff.mp (List.mem_append_right _ isEntry))
  case leftNext => exact split.leftNext
  case rightNext => omega

/-- The halves of a full node, and where the anchor of the right one lies. -/
theorem WellFormed.halves_between (wellFormed : WellFormed source start) {pair : KV} {type : LinkedNodeType}
    (divided : start.chain = earlier ++ target :: later) (isType : (start.slist.nodes target).type = type)
    (above : start.slist.anchorOf target ≤ keyOf pair)
    (below : ∀ other ∈ later, keyOf pair < start.slist.anchorOf other) {leftCap : Nat}
    (positive : 0 < leftCap) (small : leftCap < type.capacity)
    (full : type.capacity ≤ (start.fetchedReal thread target).next) (left right : LinkedNode) :
    let halves := splitBuffer ((bufferNode (start.fetchedReal thread target)).store bufferCapacity
      pair.key.val pair.value.val).2 left right leftCap
    Halves (start.fetchedReal thread target) pair leftCap halves.1 halves.2.1 halves.2.2 ∧
      start.slist.anchorOf target < halves.2.2 ∧ ∀ other ∈ later, halves.2.2 < start.slist.anchorOf other := by
  have isMember := mem_of_divided divided
  obtain ⟨_, realRecords, realFits, realMarked⟩ := wellFormed.real_fetched isMember thread
  rw [isType] at realFits
  have atMost := capacity_le_sixteen type
  obtain ⟨partitioned, _⟩ := wellFormed.partitioned_added divided above below
  have distinct := (partitioned.sound _ (List.mem_append_right _ List.mem_cons_self)).distinct
  rw [← realRecords] at distinct partitioned
  have halved := splitBuffer_halves realMarked (show (start.fetchedReal thread target).next ≤ 16 by omega)
    (show leftCap < (start.fetchedReal thread target).next by omega) distinct left right
  have nonempty : (splitBuffer ((bufferNode (start.fetchedReal thread target)).store bufferCapacity
      pair.key.val pair.value.val).2 left right leftCap).1.records ≠ [] := by
    intro isEmpty
    have count := congrArg List.length isEmpty
    rw [LinkedNode.length_records, halved.leftNext] at count
    exact positive.ne' count
  obtain ⟨between, next⟩ := partitioned.between halved.perm nonempty halved.low halved.anchorHeld
  exact ⟨halved, between, fun other isLater => next (start.cellOf other) (List.mem_map_of_mem isLater)⟩

/-! ### The paths of a put with an empty queue -/

/-- Writing a node in place changes its image, and takes back the locks. -/
structure WrittenInPlace (start : ComputeNode) (target : NodeId) (size : Nat) (image : LinkedNode)
    (after : ComputeNode) : Prop where
  moved : Moved start.slist after.slist target (start.slist.nodes target).dataNode
    (start.slist.nodes target).type
  heap : after.heap = start.heap
  remotePut : after.remotePut = start.remotePut
  remote : after.remote = Function.update start.remote (start.slist.nodes target).dataNode
    (LinkedNode.overlay size image (start.imageOf target))

/-- A put with an empty queue that finds room writes what `store` made of the fetched node. -/
theorem putWon_written {draws : PutDraws} {type : LinkedNodeType} (key value : Str)
    (queue : (start.contexts thread).requests = []) (isDone : draws.write = .done) (plan : Nat → PutPlan)
    (room : (start.fetchedReal thread target).next < type.capacity) :
    ∃ after, start.putWon source thread target key value draws type plan = ⟨true, [], after⟩ ∧
      WrittenInPlace start target (sizeofNode type)
        ((start.fetchedReal thread target).store type.capacity key value).2 after := by
  obtain ⟨real, isReal⟩ : ∃ real, real =
    ((start.fetchedReal thread target).store type.capacity key value).2 := ⟨_, rfl⟩
  have work : (start.fetchTwo thread target).firstWork thread target key value type =
      ⟨start.fetchedPred thread target, real, [], []⟩ := by
    rw [firstWork_fetched, queue, isReal]
    rfl
  rw [putWon_inPlace key value plan room isDone work rfl, ← isReal]
  obtain ⟨stored, isStored⟩ : ∃ stored, stored =
    ((start.fetchTwo thread target).staged thread (start.fetchedPred thread target) real []).write thread
      (start.slist.nodes target).dataNode (sizeofNode type) 1 .done := ⟨_, rfl⟩
  rw [← isStored]
  have sameSlist : stored.slist = start.slist := by
    rw [isStored]
    rfl
  have moved := release_moved stored thread target
  rw [sameSlist] at moved
  refine ⟨_, rfl, moved, ?_, ?_, ?_⟩
  · rw [isStored]
    rfl
  · rw [isStored]
    rfl
  · rw [isStored]
    change Function.update _ _ _ = _
    simp [staged, setSlot, setRequests]
    rfl

section Paths

variable (wellFormed : WellFormed source start) {pair : KV} {draws : PutDraws} {type : LinkedNodeType}
variable (divided : start.chain = earlier ++ target :: later)
variable (isType : (start.slist.nodes target).type = type)
variable (above : start.slist.anchorOf target ≤ keyOf pair)
variable (below : ∀ other ∈ later, keyOf pair < start.slist.anchorOf other)
variable (queue : (start.contexts thread).requests = [])

include wellFormed divided isType above below queue

/-- A node with room is written in place. -/
theorem inPlace_inserts (isDone : draws.write = .done) (plan : Nat → PutPlan)
    (room : (start.fetchedReal thread target).next < type.capacity) :
    ∃ after, start.putWon source thread target pair.key.val pair.value.val draws type plan =
        ⟨true, [], after⟩ ∧
      Inserts source start after pair ∧ after.remotePut = start.remotePut := by
  have isMember := mem_of_divided divided
  have isKnown : target ∈ SkipList.head :: start.chain := List.mem_cons_of_mem _ isMember
  obtain ⟨realType, realRecords, _, realMarked⟩ := wellFormed.real_fetched isMember thread
  obtain ⟨real, isReal⟩ : ∃ real, real =
    ((start.fetchedReal thread target).store type.capacity pair.key.val pair.value.val).2 := ⟨_, rfl⟩
  obtain ⟨after, returned, moved, sameHeap, samePut, remote⟩ :=
    @putWon_written source start thread target _ draws type pair.key.val pair.value.val queue isDone plan room
  rw [← isReal] at remote
  refine ⟨after, returned, ?_, samePut⟩
  have sameData : (after.slist.nodes target).dataNode = (start.slist.nodes target).dataNode := by
    rw [moved.dataNode, if_pos rfl]
  have sameType : (after.slist.nodes target).type = type := by
    rw [moved.type, if_pos rfl, isType]
  have sameRegion : ∀ address, after.InRegion target address ↔ start.InRegion target address := by
    intro address
    unfold InRegion
    rw [sameData, sameType, isType]
  have written : after.imageOf target =
      LinkedNode.overlay (sizeofNode type) real (start.imageOf target) := by
    unfold imageOf
    rw [sameData, remote, Function.update_self]
    rfl
  have isData : type.IsData := isType ▸ (wellFormed.intact target isMember).isData
  have realNext := LinkedNode.store_next_le room.le pair.key.val pair.value.val
  have marks := realMarked.store type.capacity pair.key pair.value
  have tag : real.type = type := by
    rw [isReal, store_type, realType, isType]
  rw [← isReal] at realNext marks
  obtain ⟨intact, records⟩ := intact_of_written isData sameType written tag realNext marks
  have rebuilt : Rebuilt source start after target earlier [target] later := by
    apply wellFormed.rebuilt_moved divided moved
    · rw [sameHeap]
      exact wellFormed.sound
    · rw [sameHeap]
      exact fun _ reserved => reserved
    · intro address inRegion
      rw [sameHeap]
      exact wellFormed.taken target isKnown address ((sameRegion address).mp inRegion)
    · intro address inRegion
      exact Or.inl ((sameRegion address).mp inRegion)
    · intro searchNode isOld isOther
      rw [remote, Function.update_of_ne (wellFormed.dataNode_ne isOld isKnown isOther)]
      exact ⟨_, rfl⟩
    · exact intact
  apply rebuilt.adds wellFormed above below
  rw [records, isReal, store_adds realMarked pair room, realRecords]

omit isType queue in
/-- A node with its record added, written to a chunk of a type that holds all its records. -/
theorem rewritten_inserts {chosen : LinkedNodeType} {remote : RemotePointer} {moved : ComputeNode}
    (isData : chosen.IsData)
    (rewritten : Rewritten source (start.fetchTwo thread target) thread target
      (start.fetchedPred thread target)
      (sealedAs chosen ((start.fetchedReal thread target).store 16 pair.key.val pair.value.val).2) [] remote moved)
    (took : RemoteHeap.Took source start.heap moved.heap remote (sizeofNode chosen))
    (room : (start.fetchedReal thread target).next < 16)
    (fits : ((start.fetchedReal thread target).store 16 pair.key.val pair.value.val).2.next ≤ chosen.capacity) :
    Inserts source start (moved.release thread target) pair := by
  have isMember := mem_of_divided divided
  obtain ⟨_, realRecords, _, realMarked⟩ := wellFormed.real_fetched isMember thread
  obtain ⟨real, isReal⟩ : ∃ real, real =
    ((start.fetchedReal thread target).store 16 pair.key.val pair.value.val).2 := ⟨_, rfl⟩
  rw [← isReal] at rewritten fits
  obtain ⟨after, isAfter⟩ : ∃ after, after = moved.release thread target := ⟨_, rfl⟩
  rw [← isAfter]
  have move : Moved start.slist after.slist target remote chosen := by
    rw [isAfter]
    exact rewritten.moved.release thread
  have memory : after.remote = moved.remote := by
    rw [isAfter]
    rfl
  have heap : after.heap = moved.heap := by
    rw [isAfter]
    rfl
  have sameData : (after.slist.nodes target).dataNode = remote := by
    rw [move.dataNode, if_pos rfl]
  have sameType : (after.slist.nodes target).type = chosen := by
    rw [move.type, if_pos rfl]
  have inChunk : ∀ address, after.InRegion target address →
      RemoteHeap.Reserve source start.heap address ∧ ¬ RemoteHeap.Reserve source moved.heap address := by
    intro address inRegion
    unfold InRegion at inRegion
    rw [sameData, sameType] at inRegion
    exact took.chunk address inRegion.1 inRegion.2
  have written : after.imageOf target =
      LinkedNode.overlay (sizeofNode chosen) (sealedAs chosen real) (start.remote remote) := by
    unfold imageOf
    rw [sameData, memory, rewritten.memory, Function.update_self]
    rfl
  have marks := realMarked.store 16 pair.key pair.value
  rw [← isReal] at marks
  obtain ⟨intact, records⟩ := intact_of_written isData sameType written rfl fits marks
  have rebuilt : Rebuilt source start after target earlier [target] later := by
    apply wellFormed.rebuilt_moved divided move
    · rw [heap]
      exact took.sound
    · rw [heap]
      exact took.shrinks
    · intro address inRegion
      rw [heap]
      exact (inChunk address inRegion).2
    · intro address inRegion
      exact Or.inr (inChunk address inRegion).1
    · intro searchNode isOld isOther
      have notNew : (start.slist.nodes searchNode).dataNode ≠ remote := by
        intro same
        have taken := wellFormed.dataNode_taken isOld
        rw [same] at taken
        exact taken rewritten.fresh
      rw [memory, rewritten.memory, Function.update_of_ne notNew]
      exact wellFormed.relinked_images isMember thread remote isOld
    · exact intact
  apply rebuilt.adds wellFormed above below
  rw [records]
  change real.records = _
  rw [isReal, store_adds realMarked pair room, realRecords]

/-- A full node of type 12 or 14 is moved to a chunk for sixteen records. -/
theorem eager_inserts (isDone : draws.batch = .done) {plan : Nat → PutPlan} (isPlan : plan 1 = .eager)
    (full : type.capacity ≤ (start.fetchedReal thread target).next) (small : type.capacity < 16) :
    ∃ after, start.putWon source thread target pair.key.val pair.value.val draws type plan =
        ⟨true, [], after⟩ ∧
      Inserts source start after pair ∧ after.remotePut = start.remotePut := by
  have isMember := mem_of_divided divided
  obtain ⟨predMember, _⟩ := wellFormed.backwardOf_mem isMember
  obtain ⟨_, _, realFits, _⟩ := wellFormed.real_fetched isMember thread
  have room : (start.fetchedReal thread target).next < 16 := by
    rw [isType] at realFits
    omega
  have work : (start.fetchTwo thread target).eagerWork thread target pair.key.val pair.value.val false =
      ⟨start.fetchedPred thread target,
        ((start.fetchedReal thread target).store 16 pair.key.val pair.value.val).2, [], []⟩ := by
    have buffers := start.fetchTwo_buffers thread target
    unfold eagerWork
    rw [buffers.1, buffers.2]
    change helpOthers _ _ _ _ (start.contexts thread).requests = _
    rw [queue]
    rfl
  obtain ⟨remote, moved, returned, rewritten⟩ := eagerMorph_done (start.fetchTwo thread target) thread target
    pair.key.val pair.value.val false wellFormed.sound (wellFormed.dataNode_taken predMember) isDone work
  have allocates := @eagerMorph_allocates source _ (start.fetchTwo thread target) thread target
    pair.key.val pair.value.val _ false isDone
  rw [returned] at allocates
  have took := rewritten.took wellFormed.sound trivial allocates.1 allocates.2
  rw [putWon_full pair.key.val pair.value.val draws plan full, queue]
  simp only [List.length_nil, Nat.zero_add, isPlan, followPlan, returned]
  refine ⟨_, rfl, ?_, rewritten.remotePut⟩
  exact rewritten_inserts wellFormed divided above below LinkedNodeType.isData16 rewritten took room
    (LinkedNode.store_next_le room.le pair.key.val pair.value.val)

/-- A full node is split where the plan gives each half the type it is written as. -/
theorem split_inserts (isDone : draws.batch = .done) {plan : Nat → PutPlan} {leftCap : Nat}
    {leftType rightType : LinkedNodeType} (leftData : leftType.IsData) (rightData : rightType.IsData)
    (isPlan : plan 1 = .split leftCap leftType rightType leftType rightType) (positive : 0 < leftCap)
    (small : leftCap < type.capacity) (leftFits : leftCap ≤ leftType.capacity)
    (rightFits : type.capacity + 1 ≤ leftCap + rightType.capacity)
    (full : type.capacity ≤ (start.fetchedReal thread target).next) :
    ∃ after, start.putWon source thread target pair.key.val pair.value.val draws type plan =
        ⟨true, [], after⟩ ∧
      Inserts source start after pair ∧ after.remotePut = start.remotePut := by
  have isMember := mem_of_divided divided
  have isKnown : target ∈ SkipList.head :: start.chain := List.mem_cons_of_mem _ isMember
  obtain ⟨predMember, _⟩ := wellFormed.backwardOf_mem isMember
  obtain ⟨_, realRecords, realFits, realMarked⟩ := wellFormed.real_fetched isMember thread
  rw [isType] at realFits
  obtain ⟨halved, between, nextAnchors⟩ := wellFormed.halves_between divided isType above below positive small
    full ((start.fetchTwo thread target).buffers thread 1) ((start.fetchTwo thread target).buffers thread 2)
  obtain ⟨buffer, isBuffer⟩ : ∃ buffer, buffer = ((bufferNode (start.fetchedReal thread target)).store
    bufferCapacity pair.key.val pair.value.val).2 := ⟨_, rfl⟩
  rw [← isBuffer] at halved between nextAnchors
  have work : (start.fetchTwo thread target).splitWork thread target pair.key.val pair.value.val false =
      ⟨start.fetchedPred thread target, buffer, [], []⟩ := by
    have buffers := start.fetchTwo_buffers thread target
    unfold splitWork
    rw [buffers.1, buffers.2, isBuffer]
    change helpOthers _ _ _ _ (start.contexts thread).requests = _
    rw [queue]
    rfl
  obtain ⟨l, r, moved, returned, split⟩ := splitPath_done (start.fetchTwo thread target) thread target
    pair.key.val pair.value.val leftCap leftType rightType false wellFormed.sound
    (wellFormed.dataNode_taken predMember) leftData rightData (wellFormed.known isKnown).ne isDone work rfl
  generalize splitBuffer buffer ((start.fetchTwo thread target).buffers thread 1)
    ((start.fetchTwo thread target).buffers thread 2) leftCap = halves at halved between nextAnchors split
  have allocates := @splitPath_allocates source _ (start.fetchTwo thread target) thread target
    pair.key.val pair.value.val _ false isDone leftCap leftType rightType leftType rightType
  rw [returned] at allocates
  have took := split.took wellFormed.sound leftData rightData allocates.1 allocates.2
  have rightNext := halved.rightNext
  obtain ⟨after, isAfter, rebuilt, leftRecords, rightRecords, isAnchor⟩ := wellFormed.rebuilt_split divided
    split took leftData rightData (halved.leftNext.trans_le leftFits) (by omega) halved.leftMarked
    halved.rightMarked between nextAnchors
  rw [putWon_full pair.key.val pair.value.val draws plan full, queue]
  simp only [List.length_nil, Nat.zero_add, isPlan, followPlan, returned]
  refine ⟨_, rfl, ?_, split.remotePut⟩
  rw [← isAfter]
  apply rebuilt.divides wellFormed above below
  · rw [leftRecords, rightRecords, ← realRecords]
    exact halved.perm
  · rw [isAnchor]
    exact between
  · rw [isAnchor]
    exact nextAnchors
  · rw [isAnchor, leftRecords]
    exact halved.low
  · rw [isAnchor, rightRecords]
    exact halved.high

/-- `put12`, `put14` and `put16` once both locks are won. -/
theorem putFor_inserts (isLarge : type = .type12 ∨ type = .type14 ∨ type = .type16)
    (writeDone : draws.write = .done) (batchDone : draws.batch = .done) :
    ∃ after, start.putFor source thread target pair.key.val pair.value.val draws type = ⟨true, [], after⟩ ∧
      Inserts source start after pair ∧ after.remotePut = start.remotePut := by
  have isMember := mem_of_divided divided
  have isData : type.IsData := isType ▸ (wellFormed.intact target isMember).isData
  rw [putFor_eq _ _ _ _ _ _ _ isData]
  by_cases room : (start.fetchedReal thread target).next < type.capacity
  · exact inPlace_inserts wellFormed divided isType above below queue writeDone _ room
  · have full := not_lt.mp room
    rcases isLarge with isTwelve | isFourteen | isSixteen
    · subst isTwelve
      exact eager_inserts wellFormed divided isType above below queue batchDone rfl full (by decide)
    · subst isFourteen
      exact eager_inserts wellFormed divided isType above below queue batchDone rfl full (by decide)
    · subst isSixteen
      exact split_inserts wellFormed divided isType above below queue batchDone LinkedNodeType.isData10
        LinkedNodeType.isData10 rfl (by decide) (by decide) (by decide) (by decide) full

end Paths

end DiStore.Cluster.ComputeNode
