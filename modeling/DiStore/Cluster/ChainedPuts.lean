import DiStore.Cluster.NodeChains
import DiStore.Cluster.QueueOrder
import DiStore.Cluster.RepeatedPut

/-!
Contract: in which runs of puts the data nodes stay chained.

Owns: the puts that keep the chain (`ComputeNode.KeepsChain`), the chain that a flush leaves, and
that every state of a run is chained exactly if every put of the run keeps the chain.
-/

set_option autoImplicit false

namespace DiStore.Cluster.ComputeNode

open DiStore.Concurrency DiStore.DataLayer DiStore.Library DiStore.Memory DiStore.SearchLayer

variable {source : SegmentSource} {node start before after moved : ComputeNode} {thread : ThreadId}
variable {target id : NodeId} {chain : List NodeId} {remote : RemotePointer} {type : LinkedNodeType}

/-- Chained nodes, with what puts keep of the chain in any case. -/
structure Chained (source : SegmentSource) (node : ComputeNode) : Prop where
  arranged : ∃ chain, Arranged source node chain
  nodesChained : NodesChained node

theorem SameChain.chained (same : SameChain before after) (chained : Chained source before)
    (settled : Settled source after) : Chained source after := by
  obtain ⟨chain, arranged⟩ := chained.arranged
  exact ⟨⟨chain, same.arranged arranged settled⟩, same.nodesChained chained.nodesChained⟩

theorem WonInsert.sameChain {won : ComputeNode} (wonInsert : WonInsert node won thread target) :
    SameChain node won := by
  have moved := wonInsert.moved
  constructor
  case forward => exact funext (moved.forward 0)
  case count => exact moved.count
  case dataNode =>
    intro id
    rw [moved.dataNode]
    split
    next isTarget => rw [isTarget]
    next => rfl
  case type =>
    intro id
    rw [moved.type]
    split
    next isTarget => rw [isTarget]
    next => rfl
  case backward => exact moved.backward
  case anchor => exact moved.anchor
  case remote => exact wonInsert.remote

/-- The background thread links the upper levels. -/
theorem Chained.calibrateNext (chained : Chained source node) : Chained source node.calibrateNext := by
  obtain ⟨chain, arranged⟩ := chained.arranged
  have settled := arranged.settled.calibrateNext
  unfold ComputeNode.calibrateNext at settled ⊢
  split
  next => exact chained
  next entry rest isQueue =>
    simp only [isQueue] at settled
    have nodes := SkipList.sameNodes_calibrate node.slist entry.newNode entry.level
    apply SameChain.chained _ chained settled
    constructor
    case forward => exact SkipList.forward_calibrate node.slist entry.newNode entry.level
    case count => exact nodes.count
    case dataNode => exact nodes.dataNode
    case type => exact nodes.type
    case backward => exact nodes.backward
    case anchor => exact nodes.anchor
    case remote => rfl

variable [Digest] {key : Bytes16} {value : Str} {draws : PutDraws}

/-! ### One put into a data node -/

/-- If the put splits the node, nothing is behind the node, and at most `left_cap` of the records
that are divided are below its anchor. -/
def KeepsSplit (node : ComputeNode) (target : NodeId) (key value : Str) : Prop :=
  (node.slist.nodes target).type = .type16 → 16 ≤ (node.imageOf target).next →
    node.slist.forward 0 target = none ∧
      (((node.imageOf target).store bufferCapacity key value).2.records.countP fun pair =>
        pair.key.val < node.slist.anchorOf target) ≤ 9

theorem SameChain.keepsSplit_iff (same : SameChain before after) (key value : Str) :
    after.KeepsSplit target key value ↔ before.KeepsSplit target key value := by
  unfold KeepsSplit
  rw [same.type, same.imageOf, same.forward, same.anchor]

/-- The node of type 16 that a put divides has the records of its image, with the put's own. -/
theorem divided_records (bounded : (start.imageOf target).next ≤ 16)
    (isType : (start.slist.nodes target).type = .type16) (value : Bytes16) :
    ((bufferNode (start.fetchedReal thread target)).store bufferCapacity key.val value.val).2.records =
      ((start.imageOf target).store bufferCapacity key.val value.val).2.records := by
  have fetched : (start.fetchedReal thread target).entries = (start.imageOf target).entries := by
    apply fetchedReal_entries
    · rw [isType]
      trivial
    · rw [isType]
      exact bounded
  have sameNext := next_of_entries fetched
  apply records_of_entries
  apply (store_congr_entries _ bufferCapacity key value).2
  rw [bufferNode_entries (sameNext ▸ bounded), fetched]

/-- The last node is split: its new neighbour is chained, if its anchor is not below. -/
theorem Arranged.halved {earlier : List NodeId} {value : Bytes16} {halves : LinkedNode × LinkedNode × Str}
    {level : Level} {l r : RemotePointer} (arranged : Arranged source start (earlier ++ [target]))
    (chained : NodesChained start) (isType : (start.slist.nodes target).type = .type16)
    (full : 16 ≤ (start.imageOf target).next)
    (isHalves : splitBuffer
      ((bufferNode (start.fetchedReal thread target)).store bufferCapacity key.val value.val).2
      (start.fetchedReal thread target) ((start.fetchTwo thread target).buffers thread 2) 9 = halves)
    (split : SplitInTwo source (start.fetchTwo thread target) thread target
      (start.fetchedPred thread target) (sealedAs .type10 halves.1) (sealedAs .type10 halves.2.1)
      halves.2.2 .type10 .type10 [] level l r moved)
    (settled : Settled source (moved.release thread target)) :
    Arranged source (moved.release thread target) (earlier ++ [target, start.slist.count]) ∧
      (NodesChained (moved.release thread target) ↔ start.KeepsSplit target key.val value.val) := by
  have bounded := arranged.fits target mem_last
  have records := @divided_records start thread target _ key bounded isType value
  have sameNext : (start.fetchedReal thread target).next = (start.imageOf target).next :=
    fetchedReal_next (isType ▸ trivial)
  obtain ⟨buffer, isBuffer⟩ : ∃ buffer, buffer =
    ((bufferNode (start.fetchedReal thread target)).store bufferCapacity key.val value.val).2 := ⟨_, rfl⟩
  rw [← isBuffer] at isHalves records
  have bufferNext : 16 ≤ buffer.next ∧ buffer.next ≤ 17 := by
    have bounds := LinkedNode.store_next_bounds (bufferNode (start.fetchedReal thread target)) bufferCapacity
      key.val value.val
    have isNext : (bufferNode (start.fetchedReal thread target)).next = (start.imageOf target).next := sameNext
    rw [isNext, ← isBuffer] at bounds
    exact ⟨full.trans bounds.1, bounds.2.trans (Nat.succ_le_succ bounded)⟩
  obtain ⟨picked, halved, _, _⟩ := splitBuffer_spec buffer (start.fetchedReal thread target)
    ((start.fetchTwo thread target).buffers thread 2) (show 9 < buffer.next by omega)
  rw [isHalves] at halved
  have leftFits : halves.1.next ≤ 16 := by
    rw [halved.left_next]
    decide
  have rightFits : halves.2.1.next ≤ 16 := by
    rw [halved.right_next]
    omega
  have lastSplit := split.lastSplit arranged mem_last leftFits rightFits
  have bottom := split.bottom arranged.bottom
  refine ⟨lastSplit.arranged_after arranged settled bottom, ?_⟩
  rw [lastSplit.nodesChained_iff arranged settled bottom chained, halved.le_anchor_iff, records]
  have isLast : start.slist.forward 0 target = none := arranged.bottom.linked.suffix
  constructor
  · intro few _ _
    exact ⟨isLast, few⟩
  · intro keeps
    exact (keeps isType full).2

/-- A put of a winner leaves the nodes chained exactly if it keeps them so at a split. -/
theorem Arranged.putWon {value : Bytes16} (arranged : Arranged source start chain)
    (chained : NodesChained start) (isMember : target ∈ chain)
    (queue : (start.contexts thread).requests = []) (writeDone : draws.write = .done)
    (batchDone : draws.batch = .done) :
    ∃ replies after, start.putWon source thread target key.val value.val draws
        (start.slist.nodes target).type (planOf (start.slist.nodes target).type) = ⟨true, replies, after⟩ ∧
      (NodesChained after ↔ start.KeepsSplit target key.val value.val) ∧
      (NodesChained after → Chained source after) := by
  have known := arranged.known isMember
  have notHead := arranged.bottom.ne_head isMember
  have isData := arranged.isData isMember
  have sameNext : (start.fetchedReal thread target).next = (start.imageOf target).next :=
    fetchedReal_next isData
  by_cases room : (start.fetchedReal thread target).next < (start.slist.nodes target).type.capacity
  · obtain ⟨after, returned, settled, moved, remote⟩ := @Settled.inPlace source start thread target _ _ key.val
      value.val draws arranged.settled known notHead rfl queue writeDone (planOf _) room
    have relinks := relinks_inPlace arranged chained isMember rfl room moved remote
    have stays := relinks.nodesChained arranged settled isMember chained
    refine ⟨[], after, returned, ⟨fun _ isType full => ?_, fun _ => stays⟩,
      fun _ => ⟨⟨chain, relinks.arranged arranged settled⟩, stays⟩⟩
    rw [sameNext, isType] at room
    exact absurd room (not_lt.mpr full)
  · obtain ⟨replies, moved, returned, outgrows⟩ := @Settled.full source start thread target _ _ key.val
      value.val draws arranged.settled known notHead isData queue batchDone (not_lt.mp room)
    have settled := (outgrows.settled arranged.settled known notHead).1
    refine ⟨replies, moved.release thread target, returned, ?_⟩
    cases outgrows with
    | grown notLast isChosen rewritten =>
        have relinks := rewritten.relinks arranged isMember isChosen
        have stays := relinks.nodesChained arranged settled isMember chained
        exact ⟨⟨fun _ isLast => absurd isLast notLast, fun _ => stays⟩,
          fun _ => ⟨⟨chain, relinks.arranged arranged settled⟩, stays⟩⟩
    | halved isLast isHalves split =>
        rw [sameNext, isLast] at room
        have full : 16 ≤ (start.imageOf target).next := not_lt.mp room
        obtain ⟨earlier, later, divided⟩ := List.append_of_mem isMember
        subst divided
        cases later with
        | nil =>
            obtain ⟨stays, chainedIff⟩ := arranged.halved chained isLast full isHalves split settled
            exact ⟨chainedIff, fun chainedAfter => ⟨⟨_, stays⟩, chainedAfter⟩⟩
        | cons next later =>
            have breaks := split.unchains arranged chained
            have ahead : start.slist.forward 0 target = some next := arranged.bottom.linked.suffix.1
            refine ⟨⟨fun chainedAfter => absurd chainedAfter breaks, fun keeps => ?_⟩,
              fun chainedAfter => absurd chainedAfter breaks⟩
            have isEnd := (keeps isLast full).1
            rw [ahead] at isEnd
            cases isEnd

/-- What a put must look like to keep the data nodes chained: a flush starts from two anchors, and a
split keeps the chain. -/
def KeepsChain (node : ComputeNode) (key value : Str) : Prop :=
  if node.remotePut = true then
    ∀ target, node.slist.fuzzySearch key = some target → node.KeepsSplit target key value
  else node.stage.quickPut key value = none → node.stage.anchors 0 ≠ node.stage.anchors 1

/-- A put after the flush. -/
theorem Chained.put_returned {value : Bytes16} (chained : Chained source node) (idle : Idle node)
    {flush : FlushDraws} (done : AllWritesDone flush draws) {result : Bool}
    (returned : node.put source thread key.val value.val flush draws = (.returned result, after)) :
    (NodesChained after ↔ node.KeepsChain key.val value.val) ∧
      (NodesChained after → Chained source after) := by
  obtain ⟨chain, arranged⟩ := chained.arranged
  have settled := arranged.settled
  obtain ⟨target, found, notHead⟩ := settled.put_routed returned
  have isMember := arranged.bottom.mem_chain (idle.closed.fuzzySearch_lt found) notHead
  obtain ⟨won, wonInsert, wonSettled, isPut⟩ := settled.put_won idle thread found notHead value.val flush draws
  have same := wonInsert.sameChain
  obtain ⟨replies, late, returnedWon, chainedIff, keeps⟩ := @Arranged.putWon source won thread target chain _
    key draws value (same.arranged arranged wonSettled) (same.nodesChained chained.nodesChained) isMember
    wonInsert.requests done.write done.batch
  rw [same.type target] at returnedWon
  rw [isPut, returnedWon] at returned
  cases returned
  refine ⟨?_, keeps⟩
  rw [chainedIff, same.keepsSplit_iff]
  unfold KeepsChain
  rw [if_pos settled.remotePut]
  constructor
  · intro split other isOther
    rw [found] at isOther
    cases isOther
    exact split
  · intro split
    exact split target found

/-! ### The flush -/

/-- The two images after a flush, each of its type, the first one linked to the second one. -/
structure TwoImages (after : ComputeNode) (fakeHead firstRemote secondRemote : RemotePointer)
    (firstType secondType : LinkedNodeType) : Prop where
  differ : firstRemote ≠ secondRemote
  notHead : firstRemote ≠ fakeHead ∧ secondRemote ≠ fakeHead
  notNull : firstRemote ≠ nullptr
  first : (after.remote firstRemote).type = firstType ∧ (after.remote firstRemote).next ≤ 16 ∧
    (after.remote firstRemote).rlink = secondRemote
  second : (after.remote secondRemote).type = secondType ∧ (after.remote secondRemote).next ≤ 16 ∧
    (after.remote secondRemote).rlink = nullptr

section TwoNodes

variable {levels : Nat → List NodeId} {first second : Str} {fakeHead firstRemote secondRemote : RemotePointer}
variable {firstType secondType : LinkedNodeType} (ordered : after.slist.Ordered levels)
variable (isBottom : levels 0 = if first = second then [2, 1] else [1, 2])
variable (nodes : SkipList.TwoNodes after.slist fakeHead first second firstRemote secondRemote firstType
  secondType)
variable (images : TwoImages after fakeHead firstRemote secondRemote firstType secondType)

include ordered isBottom nodes images

omit [Digest] in
theorem two_arranged (settled : Settled source after) : Arranged source after (levels 0) := by
  have members : ∀ id, id ∈ levels 0 ↔ id = 1 ∨ id = 2 := by
    intro id
    rw [isBottom]
    split
    next => simp [or_comm]
    next => simp
  have three : ∀ number : Nat, number = 0 ∨ number = 1 ∨ number = 2 ↔ number < 3 := by omega
  have firstNode := nodes.dataNode.1
  have secondNode := nodes.dataNode.2
  constructor
  case settled => exact settled
  case bottom =>
    refine ⟨ordered.linked 0, ordered.nodup 0, fun id => ?_⟩
    rw [List.mem_cons, members, nodes.count]
    exact three id
  case front =>
    intro front isFront
    rw [isBottom] at isFront
    split at isFront
    next same =>
      cases isFront
      rw [nodes.backward.2, if_pos same]
    next differ =>
      cases isFront
      rw [nodes.backward.1, if_neg differ]
  case separate =>
    have place : ∀ id < after.slist.count, id = SkipList.head ∨ id = 1 ∨ id = 2 := by
      intro id known
      rw [nodes.count] at known
      exact (three id).mpr known
    intro left leftKnown right rightKnown differ
    rcases place left leftKnown with isLeft | isLeft | isLeft
    · rcases place right rightKnown with isRight | isRight | isRight
      · exact absurd (isLeft.trans isRight.symm) differ
      · rw [isLeft, isRight, nodes.headNode, firstNode]
        exact images.notHead.1.symm
      · rw [isLeft, isRight, nodes.headNode, secondNode]
        exact images.notHead.2.symm
    · rcases place right rightKnown with isRight | isRight | isRight
      · rw [isLeft, isRight, nodes.headNode, firstNode]
        exact images.notHead.1
      · exact absurd (isLeft.trans isRight.symm) differ
      · rw [isLeft, isRight, firstNode, secondNode]
        exact images.differ
    · rcases place right rightKnown with isRight | isRight | isRight
      · rw [isLeft, isRight, nodes.headNode, secondNode]
        exact images.notHead.2
      · rw [isLeft, isRight, firstNode, secondNode]
        exact images.differ.symm
      · exact absurd (isLeft.trans isRight.symm) differ
  case tag =>
    intro id isMember
    unfold imageOf
    rcases (members id).mp isMember with isFirst | isSecond
    · rw [isFirst, firstNode, nodes.type.1]
      exact images.first.1
    · rw [isSecond, secondNode, nodes.type.2]
      exact images.second.1
  case fits =>
    intro id isMember
    unfold imageOf
    rcases (members id).mp isMember with isFirst | isSecond
    · rw [isFirst, firstNode]
      exact images.first.2.1
    · rw [isSecond, secondNode]
      exact images.second.2.1

omit [Digest] in
/-- Of two nodes with one anchor, the second one comes first, and nothing links to the other. -/
theorem two_nodesChained_iff (settled : Settled source after) :
    NodesChained after ↔ first ≠ second := by
  have arranged := two_arranged ordered isBottom nodes images settled
  have linked := ordered.linked 0
  constructor
  · intro chained same
    rw [if_pos same] at isBottom
    rw [isBottom] at linked
    have isMember : (2 : NodeId) ∈ levels 0 := by
      rw [isBottom]
      exact List.mem_cons_self
    have link := (arranged.joined chained isMember linked.2.1).rlink
    unfold imageOf at link
    rw [nodes.dataNode.1, nodes.dataNode.2, images.second.2.2] at link
    exact images.notNull link.symm
  · intro differ
    rw [if_neg differ] at isBottom
    apply arranged.nodesChained
    · intro left isLeft right isNext
      rw [isBottom] at linked isLeft
      rcases List.mem_cons.mp isLeft with isFirst | isSecond
      · rw [isFirst, linked.2.1] at isNext
        cases isNext
        rw [isFirst]
        constructor
        · rw [nodes.backward.2, if_neg differ]
        · unfold imageOf
          rw [nodes.dataNode.1, nodes.dataNode.2]
          exact images.first.2.2
      · rw [List.mem_singleton.mp isSecond, linked.2.2] at isNext
        cases isNext
    · exact ordered.sorted 0

end TwoNodes

omit [Digest] in
theorem fields_overlay {image old : LinkedNode} (isData : type.IsData) (tag : image.type = type)
    (fits : image.next ≤ 16) :
    (LinkedNode.overlay (sizeofNode type) image old).type = type ∧
      (LinkedNode.overlay (sizeofNode type) image old).next ≤ 16 ∧
      (LinkedNode.overlay (sizeofNode type) image old).rlink = image.rlink := by
  have nonempty := sizeofNode_ne_zero isData
  rw [LinkedNode.overlay_type nonempty, LinkedNode.overlay_next nonempty, LinkedNode.overlay_rlink nonempty]
  exact ⟨tag, fits, rfl⟩

theorem flushLarger_fields {flushNode node : LinkedNode} (tag : flushNode.type = .type12)
    (bounded : node.next ≤ 10) (llink rlink : RemotePointer) (key value : Str) (old : LinkedNode) :
    let image := LinkedNode.overlay (sizeofNode .type12) (flushLarger flushNode node llink rlink key value) old
    image.type = .type12 ∧ image.next ≤ 16 ∧ image.rlink = rlink := by
  obtain ⟨isType, fits, link⟩ := @fields_overlay .type12 (flushLarger flushNode node llink rlink key value) old
    trivial ((flushLarger_type key value).trans tag)
    ((flushLarger_next_le bounded key value).trans (by decide))
  exact ⟨isType, fits, link.trans (store_rlink (flushCopy flushNode node llink rlink) 12 key value)⟩

theorem flushed_images {slot : Fin 2} {draws : FlushDraws} {larger smaller : RemotePointer}
    (flushed : Flushed source thread node slot key.val value draws larger smaller after)
    (bounded : ∀ place, (node.stage.nodes place).next ≤ 10)
    (tags : ∀ place, (node.stage.nodes place).type = .type10) (tag : node.flushNode.type = .type12) :
    if slot = 0 then TwoImages after node.fakeHead larger smaller .type12 .type10
    else TwoImages after node.fakeHead smaller larger .type10 .type12 := by
  have smallerFits := (bounded (1 - slot)).trans (show 10 ≤ 16 by decide)
  have largerRemote := flushed.largerRemote
  have smallerRemote := flushed.smallerRemote
  unfold largerImage at largerRemote
  unfold smallerNode at smallerRemote
  by_cases isFirst : slot = 0
  · rw [if_pos isFirst] at largerRemote smallerRemote ⊢
    constructor
    case differ => exact flushed.differ
    case notHead => exact ⟨flushed.largerNotHead, flushed.smallerNotHead⟩
    case notNull => exact flushed.largerPos
    case first =>
      rw [largerRemote]
      exact flushLarger_fields tag (bounded slot) _ _ _ _ _
    case second =>
      rw [smallerRemote]
      exact fields_overlay LinkedNodeType.isData10 (tags (1 - slot)) smallerFits
  · rw [if_neg isFirst] at largerRemote smallerRemote ⊢
    constructor
    case differ => exact flushed.differ.symm
    case notHead => exact ⟨flushed.smallerNotHead, flushed.largerNotHead⟩
    case notNull => exact flushed.smallerPos
    case first =>
      rw [smallerRemote]
      exact fields_overlay LinkedNodeType.isData10 (tags (1 - slot)) smallerFits
    case second =>
      rw [largerRemote]
      exact flushLarger_fields tag (bounded slot) _ _ _ _ _

/-- The nodes are chained after a flush exactly if it starts from two anchors. -/
theorem Staging.flush_chained {value : Bytes16} (staging : Staging source node) {flush : FlushDraws}
    (done : AllWritesDone flush draws) (full : node.stage.quickPut key.val value.val = none) {result : Bool}
    (returned : node.put source thread key.val value.val flush draws = (.returned result, after)) :
    (∃ chain, Arranged source after chain) ∧ (NodesChained after ↔ node.stage.anchors 0 ≠ node.stage.anchors 1) := by
  have unflushed := staging.unflushed
  obtain ⟨larger, smaller, flushed⟩ := staging.put_flushes done full returned
  obtain ⟨sameNodes, ordered, sameAnchors⟩ := staging.picked full
  have settled := flushed.settled unflushed.slist ordered
  have bounded := unflushed.shape.bounded
  have tags := unflushed.shape.tag
  rw [← sameNodes] at bounded tags
  have images := flushed_images flushed bounded tags unflushed.tag
  have slist := flushed.slist
  simp only [unflushed.slist] at slist
  split at images
  next isFirst =>
    rw [if_pos isFirst] at slist
    obtain ⟨levels, inserted, isBottom, nodes⟩ := SkipList.insert_two_spec node.fakeHead ordered larger smaller
      .type12 .type10 flush.firstLevel.property.1 flush.secondLevel.property.1
    rw [← slist] at inserted nodes
    exact ⟨⟨_, two_arranged inserted isBottom nodes images settled⟩,
      (two_nodesChained_iff inserted isBottom nodes images settled).trans (not_congr sameAnchors)⟩
  next isSecond =>
    rw [if_neg isSecond] at slist
    obtain ⟨levels, inserted, isBottom, nodes⟩ := SkipList.insert_two_spec node.fakeHead ordered smaller larger
      .type10 .type12 flush.firstLevel.property.1 flush.secondLevel.property.1
    rw [← slist] at inserted nodes
    exact ⟨⟨_, two_arranged inserted isBottom nodes images settled⟩,
      (two_nodesChained_iff inserted isBottom nodes images settled).trans (not_congr sameAnchors)⟩

/-! ### Runs with their puts -/

/-- A call of `put`, with the state that it starts from. -/
structure PutCall where
  before : ComputeNode
  key : Bytes16
  value : Bytes16

/-- The puts of one client from `initialize` on, all of whose writes are done: the state they
reach, the states before it, and the calls. -/
inductive PutTrace (source : SegmentSource) (thread : ThreadId) :
    ComputeNode → List ComputeNode → List PutCall → Prop
  | initialized (main : ThreadId) (memory : RemotePointer → LinkedNode)
      (buffers : ThreadId → Nat → LinkedNode) (heap : Fin 2 → LinkedNode) :
      PutTrace source thread (initialized source main memory buffers heap) [] []
  | put {node after : ComputeNode} {states : List ComputeNode} {calls : List PutCall}
      (earlier : PutTrace source thread node states calls) (key value : Bytes16) {flush : FlushDraws}
      {draws : PutDraws} (done : AllWritesDone flush draws) {result : Bool}
      (returned : node.put source thread key.val value.val flush draws = (.returned result, after)) :
      PutTrace source thread after (node :: states) (⟨node, key, value⟩ :: calls)
  | calibrate {node : ComputeNode} {states : List ComputeNode} {calls : List PutCall}
      (earlier : PutTrace source thread node states calls) :
      PutTrace source thread node.calibrateNext (node :: states) calls

variable {states : List ComputeNode} {calls : List PutCall}

theorem PutTrace.run (trace : PutTrace source thread node states calls) : PutRun source thread node := by
  induction trace with
  | initialized main memory buffers heap => exact .initialized main memory buffers heap
  | put _ key value done returned inductionHypothesis => exact inductionHypothesis.put key value done returned
  | calibrate _ inductionHypothesis => exact inductionHypothesis.calibrate

theorem PutRun.trace (run : PutRun source thread node) :
    ∃ states calls, PutTrace source thread node states calls := by
  induction run with
  | initialized main memory buffers heap => exact ⟨[], [], .initialized main memory buffers heap⟩
  | put _ key value done returned inductionHypothesis =>
      obtain ⟨states, calls, trace⟩ := inductionHypothesis
      exact ⟨_, _, trace.put key value done returned⟩
  | calibrate _ inductionHypothesis =>
      obtain ⟨states, calls, trace⟩ := inductionHypothesis
      exact ⟨_, _, trace.calibrate⟩

/-- Before the flush, or chained. -/
def InOrder (source : SegmentSource) (node : ComputeNode) : Prop :=
  Staging source node ∨ Chained source node

theorem InOrder.flushed_chained (inOrder : InOrder source node) (flushed : node.remotePut = true) :
    NodesChained node := by
  rcases inOrder with staging | chained
  · rw [staging.unflushed.staysLocal] at flushed
    cases flushed
  · exact chained.nodesChained

theorem InOrder.calibrateNext (inOrder : InOrder source node) : InOrder source node.calibrateNext := by
  rcases inOrder with staging | chained
  · unfold ComputeNode.calibrateNext
    rw [staging.queue]
    exact Or.inl staging
  · exact Or.inr chained.calibrateNext

/-- A put leaves the nodes chained exactly if it is one that keeps the chain. -/
theorem InOrder.put {value : Bytes16} (inOrder : InOrder source node) (idle : Idle node)
    {flush : FlushDraws} (done : AllWritesDone flush draws) {result : Bool}
    (returned : node.put source thread key.val value.val flush draws = (.returned result, after)) :
    ((after.remotePut = true → NodesChained after) ↔ node.KeepsChain key.val value.val) ∧
      (node.KeepsChain key.val value.val → InOrder source after) := by
  rcases inOrder with staging | chained
  · have staysLocal := staging.unflushed.staysLocal
    have notFlushed : ¬ node.remotePut = true := by
      rw [staysLocal]
      exact Bool.false_ne_true
    unfold KeepsChain
    rw [if_neg notFlushed]
    cases stays : node.stage.quickPut key.val value.val with
    | some next =>
        have later := staging.put_stays stays returned
        refine ⟨⟨fun _ isNone => ?_, fun _ => InOrder.flushed_chained (Or.inl later)⟩, fun _ => Or.inl later⟩
        cases isNone
    | none =>
        obtain ⟨⟨chain, arranged⟩, chainedIff⟩ := staging.flush_chained done stays returned
        refine ⟨?_, fun differ => ?_⟩
        · rw [chainedIff]
          exact ⟨fun differ _ => differ arranged.settled.remotePut, fun differ _ => differ rfl⟩
        · exact Or.inr ⟨⟨chain, arranged⟩, chainedIff.mpr (differ rfl)⟩
  · obtain ⟨chainedIff, keeps⟩ := chained.put_returned idle done returned
    have flushed : after.remotePut = true := by
      obtain ⟨chain, arranged⟩ := chained.arranged
      exact (arranged.settled.put_returned idle done returned).remotePut
    constructor
    · rw [← chainedIff]
      exact ⟨fun later => later flushed, fun later _ => later⟩
    · intro keepsChain
      exact Or.inr (keeps (chainedIff.mpr keepsChain))

/-- As long as every put keeps the chain, the run is in order. -/
theorem PutTrace.inOrder (trace : PutTrace source thread node states calls)
    (keeps : ∀ call ∈ calls, call.before.KeepsChain call.key.val call.value.val) : InOrder source node := by
  induction trace with
  | initialized main memory buffers heap =>
      exact Or.inl ⟨initialized_unflushed source main memory buffers heap (LocalStage.shape_initial heap), rfl⟩
  | put earlier key value done returned inductionHypothesis =>
      rw [List.forall_mem_cons] at keeps
      exact ((inductionHypothesis keeps.2).put earlier.run.clientRun.idle done returned).2 keeps.1
  | calibrate earlier inductionHypothesis => exact (inductionHypothesis keeps).calibrateNext

/-- The data nodes are chained in every state of a run after the flush exactly if every put of the
run keeps the chain. -/
theorem nodes_chained_iff (trace : PutTrace source thread node states calls) :
    (∀ state ∈ node :: states, state.remotePut = true → NodesChained state) ↔
      ∀ call ∈ calls, call.before.KeepsChain call.key.val call.value.val := by
  induction trace with
  | initialized main memory buffers heap =>
      constructor
      · intro _ call isCall
        cases isCall
      · intro _ state isState flushed
        rw [List.mem_singleton.mp isState] at flushed
        cases flushed
  | put earlier key value done returned inductionHypothesis =>
      have step := fun keeps => (earlier.inOrder keeps).put earlier.run.clientRun.idle done returned
      rw [List.forall_mem_cons, inductionHypothesis, List.forall_mem_cons]
      constructor
      · intro chained
        exact ⟨(step chained.2).1.mp chained.1, chained.2⟩
      · intro keeps
        exact ⟨(step keeps.2).1.mpr keeps.1, keeps.2⟩
  | calibrate earlier inductionHypothesis =>
      rw [List.forall_mem_cons, inductionHypothesis]
      constructor
      · intro chained
        exact chained.2
      · intro keeps
        exact ⟨(earlier.inOrder keeps).calibrateNext.flushed_chained, keeps⟩

/-! ### Puts in order, and a put in the middle -/

/-- A put after the flush goes to the node that the search names. -/
theorem put_of_found {key : Str} (flush : FlushDraws) (draws : PutDraws) (flushed : node.remotePut = true)
    (found : node.slist.fuzzySearch key = some target) :
    node.put source thread key value flush draws = node.putDispatcher source thread key value target draws := by
  unfold ComputeNode.put remotePutCall
  rw [if_pos flushed, found]

instance (node : ComputeNode) (target : NodeId) (key value : Str) :
    Decidable (node.KeepsSplit target key value) :=
  inferInstanceAs (Decidable (_ → _ → _ ∧ _))

instance (node : ComputeNode) (key value : Str) : Decidable (node.KeepsChain key value) :=
  if flushed : node.remotePut = true then
    match found : node.slist.fuzzySearch key with
    | none => isTrue (by
        unfold KeepsChain
        rw [if_pos flushed, found]
        intro target isTarget
        cases isTarget)
    | some target => decidable_of_iff (node.KeepsSplit target key value) (by
        unfold KeepsChain
        rw [if_pos flushed, found]
        simp)
  else
    decidable_of_iff (node.stage.quickPut key value = none → node.stage.anchors 0 ≠ node.stage.anchors 1) (by
      unfold KeepsChain
      rw [if_neg flushed])

/-- Puts that all return, with the states on the way and the calls. -/
def traceAll (source : SegmentSource) (thread : ThreadId) (flush : FlushDraws) (draws : PutDraws)
    (start : ComputeNode × List ComputeNode × List PutCall) (records : List (Bytes16 × Bytes16)) :
    Option (ComputeNode × List ComputeNode × List PutCall) :=
  records.foldlM
    (fun trace record =>
      match trace.1.put source thread record.1.val record.2.val flush draws with
      | (.returned _, after) =>
          some (after, trace.1 :: trace.2.1, ⟨trace.1, record.1, record.2⟩ :: trace.2.2)
      | _ => none)
    start

theorem PutTrace.traceAll {flush : FlushDraws} {first last : ComputeNode × List ComputeNode × List PutCall}
    {records : List (Bytes16 × Bytes16)} (trace : PutTrace source thread first.1 first.2.1 first.2.2)
    (done : AllWritesDone flush draws) (reached : traceAll source thread flush draws first records = some last) :
    PutTrace source thread last.1 last.2.1 last.2.2 := by
  induction records generalizing first with
  | nil =>
      cases reached
      exact trace
  | cons record records inductionHypothesis =>
      unfold ComputeNode.traceAll at reached
      rw [List.foldlM_cons, Option.bind_eq_bind, Option.bind_eq_some_iff] at reached
      obtain ⟨next, isNext, later⟩ := reached
      split at isNext
      next result middle isPut =>
        cases isNext
        exact inductionHypothesis (trace.put record.1 record.2 done isPut) later
      next => cases isNext

end DiStore.Cluster.ComputeNode

namespace DiStore.Cluster.ComputeNode

open DiStore.Concurrency DiStore.DataLayer DiStore.Memory DiStore.SearchLayer

attribute [local instance] Digests.source

/-- A compute node over memory that holds zeros. -/
def zeroedNode : ComputeNode :=
  initialized (.memoryNode 0) 0 (fun _ => .zeroed) (fun _ _ => .zeroed) fun _ => .zeroed

/-- Fourteen keys in ascending order: the last node gets a larger chunk. -/
theorem ascending_chained :
    ∃ node states calls, PutTrace (.memoryNode 0) 0 node states calls ∧ calls.length = 14 ∧
      ∀ state ∈ node :: states, state.remotePut = true → NodesChained state := by
  have facts : (traceAll (.memoryNode 0) 0 drawsDone writesDone (zeroedNode, [], [])
      (byteRecords 97 14)).map (fun trace => decide (trace.2.2.length = 14 ∧
        ∀ call ∈ trace.2.2, call.before.KeepsChain call.key.val call.value.val)) = some true := by
    decide +kernel
  obtain ⟨last, reached, isLast⟩ := Option.map_eq_some_iff.mp facts
  obtain ⟨length, keeps⟩ := of_decide_eq_true isLast
  have trace := PutTrace.traceAll (.initialized 0 (fun _ => .zeroed) (fun _ _ => .zeroed) fun _ => .zeroed)
    allDone reached
  exact ⟨last.1, last.2.1, last.2.2, trace, length, (nodes_chained_iff trace).mpr keeps⟩

/-- Sixteen puts, a larger key first: the first of two nodes has fifteen records. -/
def putSixteen : Option ComputeNode :=
  putAll (.memoryNode 0) 0 drawsDone writesDone zeroedNode ((.fill 120, .fill 2) :: byteRecords 97 15)

/-- The put of a key that the first of two nodes covers. -/
def putFirst (node : ComputeNode) (key : Bytes16) : CallEnd Bool × ComputeNode :=
  node.putDispatcher (.memoryNode 0) 0 key.val (Bytes16.fill 1).val 1 writesDone

theorem putFirst_run {node after : ComputeNode} {key : Bytes16} (run : PutRun (.memoryNode 0) 0 node)
    (flushed : node.remotePut = true) (routed : node.slist.RoutesTo key.val 1 2)
    (returned : node.putFirst key = (.returned true, after)) : PutRun (.memoryNode 0) 0 after := by
  apply run.put key (.fill 1) allDone
  rw [put_of_found _ _ flushed routed.found]
  exact returned

/-- The eighteenth put divides a node that another one follows. -/
theorem middle_split_unchains :
    ¬ ∀ node, PutRun (.memoryNode 0) 0 node → node.remotePut = true → NodesChained node := by
  intro chained
  have facts : putSixteen.map (fun node =>
      decide (node.remotePut = true ∧ node.slist.RoutesTo (Bytes16.fill 112).val 1 2 ∧
        (node.putFirst (.fill 112)).1 = .returned true ∧
        (node.putFirst (.fill 112)).2.remotePut = true ∧
        (node.putFirst (.fill 112)).2.slist.RoutesTo (Bytes16.fill 113).val 1 2 ∧
        ((node.putFirst (.fill 112)).2.putFirst (.fill 113)).1 = .returned true ∧
        ((node.putFirst (.fill 112)).2.putFirst (.fill 113)).2.remotePut = true ∧
        3 ∈ ((node.putFirst (.fill 112)).2.putFirst (.fill 113)).2.chain ∧
        ((node.putFirst (.fill 112)).2.putFirst (.fill 113)).2.slist.forward 0 3 = some 2 ∧
        (((node.putFirst (.fill 112)).2.putFirst (.fill 113)).2.slist.nodes 2).backward = some 1)) =
      some true := by
    decide +kernel
  obtain ⟨node, reached, isNode⟩ := Option.map_eq_some_iff.mp facts
  obtain ⟨flushed, routed, returned, flushedNext, routedNext, returnedNext, flushedLast, isMember, isNext,
    pointsBack⟩ := of_decide_eq_true isNode
  have next := putFirst_run (putAll_run reached) flushed routed (Prod.ext returned rfl)
  have last := putFirst_run next flushedNext routedNext (Prod.ext returnedNext rfl)
  have backward := ((chained _ last flushedLast).joined 3 isMember 2 isNext).backward
  rw [pointsBack] at backward
  cases backward

end DiStore.Cluster.ComputeNode
