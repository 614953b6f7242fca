import DiStore.Cluster.MorphCapacity
import DiStore.Cluster.PutRun

/-!
Contract: a put of the only client into a flushed store, whatever the type of its node is.

Owns: the states after the flush that a put starts from and ends in (`ComputeNode.Serving`), when a
put into a full node of type 10 keeps every record (`ComputeNode.KeepsRecords`), and that each path
of a put inserts its record, leaves the fake head empty, and queues only nodes that the background
thread has yet to link.

Does not own: puts before the flush (`Cluster.StageCells`), and puts that lose records
(`Cluster.MorphCapacity`).
-/

set_option autoImplicit false

namespace DiStore.Cluster

open DiStore.Concurrency DiStore.DataLayer DiStore.Library DiStore.Memory DiStore.SearchLayer

/-! ### What a morphed node holds -/

section Marks

variable [Digest] {left right : LinkedNode}

/-- A store leaves two nodes alike that were alike. -/
theorem store_congr (entries : left.entries = right.entries) (fingerprints : left.fingerprints = right.fingerprints)
    {capacity : Nat} (pair : KV) (room : left.next < capacity) :
    let stored := fun image : LinkedNode => (image.store capacity pair.key.val pair.value.val).2
    (stored left).entries = (stored right).entries ∧ (stored left).fingerprints = (stored right).fingerprints := by
  intro stored
  have sameNext := ComputeNode.next_of_entries entries
  have sameFind := LinkedNode.find_of_entries entries pair.key
  have rightRoom : right.next < capacity := sameNext ▸ room
  constructor
  · change (left.store capacity _ _).2.entries = (right.store capacity _ _).2.entries
    rw [LinkedNode.entries_store _ _ room, LinkedNode.entries_store _ _ rightRoom, sameFind, entries]
  · change (left.store capacity _ _).2.fingerprints = (right.store capacity _ _).2.fingerprints
    unfold LinkedNode.store
    rw [if_pos room, if_pos rightRoom, sameFind]
    split
    next => exact fingerprints
    next =>
      change Function.update left.fingerprints left.next _ = Function.update right.fingerprints right.next _
      rw [fingerprints, sameNext]

theorem marksSuffice_congr (entries : left.entries = right.entries)
    (fingerprints : left.fingerprints = right.fingerprints) : MarksSuffice left ↔ MarksSuffice right := by
  unfold MarksSuffice markedRecords staleMarks
  rw [ComputeNode.next_of_entries entries, ComputeNode.records_of_entries entries, fingerprints]

end Marks

namespace ComputeNode

variable [Digest] {source : SegmentSource} {node start before after moved : ComputeNode} {thread : ThreadId}
variable {target : NodeId} {earlier later : List NodeId} {pair : KV} {draws : PutDraws}

/-- If the put is led to a full node of type 10, `morph_node` chooses a type for all its records. -/
def KeepsRecords (node : ComputeNode) (pair : KV) : Prop :=
  ∀ target, node.slist.fuzzySearch pair.key.val = some target → (node.slist.nodes target).type = .type10 →
    10 ≤ (node.imageOf target).next →
      MarksSuffice ((node.imageOf target).store 16 pair.key.val pair.value.val).2

section Morph

variable (node : ComputeNode) (thread : ThreadId) (target : NodeId) (key value : Str)

theorem morphPath_allocates (isDone : draws.batch = .done) {real : LinkedNode}
    (isReal : (node.morphWork thread target key value false).real = real) :
    let allocated := (node.allocate source thread (sizeofNode (morphNode real))).2
    let after := (node.morphPath source thread target key value draws false).node
    after.heap = allocated.heap ∧ after.allocations = allocated.allocations := by
  subst isReal
  unfold morphPath
  rw [isDone]
  generalize node.morphWork thread target key value false = work
  have written := @writeBackMorphed_allocates source
    (node.staged thread work.pred (sealedAs (morphNode work.real) work.real) work.requests) thread target
  have isReal : (node.staged thread work.pred (sealedAs (morphNode work.real) work.real)
      work.requests).buffers thread 1 = sealedAs (morphNode work.real) work.real := by
    simp [staged, setSlot, setRequests]
  rw [isReal] at written
  exact written

end Morph

section Paths

variable (wellFormed : WellFormed source start)
variable (divided : start.chain = earlier ++ target :: later)
variable (above : start.slist.anchorOf target ≤ keyOf pair)
variable (below : ∀ other ∈ later, keyOf pair < start.slist.anchorOf other)

include wellFormed divided above below

/-- A full node of type 10 is moved to a chunk for the type that its fingerprints suggest. -/
theorem morph_inserts (isType : (start.slist.nodes target).type = .type10)
    (queue : (start.contexts thread).requests = []) (isDone : draws.batch = .done)
    (full : LinkedNodeType.type10.capacity ≤ (start.fetchedReal thread target).next)
    (marks : MarksSuffice ((start.imageOf target).store 16 pair.key.val pair.value.val).2) :
    ∃ after, start.putWon source thread target pair.key.val pair.value.val draws .type10 (planOf .type10) =
        ⟨true, [], after⟩ ∧
      Inserts source start after pair ∧ after.remotePut = start.remotePut := by
  have isMember := mem_of_divided divided
  have intact := wellFormed.intact target isMember
  obtain ⟨predMember, _⟩ := wellFormed.backwardOf_mem isMember
  obtain ⟨_, _, realFits, realMarked⟩ := wellFormed.real_fetched isMember thread
  rw [isType] at realFits
  have room : (start.fetchedReal thread target).next < 16 := realFits.trans_lt (by decide)
  obtain ⟨real, isReal⟩ : ∃ real, real =
    ((start.fetchedReal thread target).store 16 pair.key.val pair.value.val).2 := ⟨_, rfl⟩
  -- the fetch reads the header and all records of the node
  have fits : real.next ≤ (morphNode real).capacity := by
    have entries := @fetchedReal_entries start thread target intact.isData intact.fits
    have fingerprints : (start.fetchedReal thread target).fingerprints = (start.imageOf target).fingerprints :=
      LinkedNode.overlay_fingerprints (sizeofNode_ne_zero intact.isData)
    have alike := store_congr entries fingerprints pair room
    simp only [← isReal] at alike
    have bounded := LinkedNode.store_next_le room.le pair.key.val pair.value.val
    have marked := realMarked.store 16 pair.key pair.value
    rw [← isReal] at bounded marked
    exact (next_le_capacity_iff bounded marked).mpr ((marksSuffice_congr alike.1 alike.2).mpr marks)
  have work : (start.fetchTwo thread target).morphWork thread target pair.key.val pair.value.val false =
      ⟨start.fetchedPred thread target, real, [], []⟩ := by
    have buffers := start.fetchTwo_buffers thread target
    unfold morphWork
    rw [buffers.1, buffers.2, isReal]
    change morphOthers _ _ _ (start.contexts thread).requests = _
    rw [queue]
    rfl
  obtain ⟨remote, moved, returned, rewritten⟩ := morphPath_done (start.fetchTwo thread target) thread target
    pair.key.val pair.value.val false wellFormed.sound (wellFormed.dataNode_taken predMember) isDone work
  have allocates := @morphPath_allocates _ source draws (start.fetchTwo thread target) thread target
    pair.key.val pair.value.val isDone real (congrArg Handover.real work)
  rw [returned] at allocates
  have isData := morphNode_isData real
  have took := rewritten.took wellFormed.sound isData allocates.1 allocates.2
  rw [putWon_full pair.key.val pair.value.val draws (planOf .type10) full, queue]
  simp only [List.length_nil, Nat.zero_add]
  rw [show planOf .type10 1 = .morph from rfl]
  simp only [followPlan, returned]
  refine ⟨_, rfl, ?_, rewritten.remotePut⟩
  subst isReal
  exact rewritten_inserts wellFormed divided above below isData rewritten took room fits

/-- A put once both locks are won, whatever the type of its node is. -/
theorem putWon_inserts {type : LinkedNodeType} (isType : (start.slist.nodes target).type = type)
    (queue : (start.contexts thread).requests = []) (writeDone : draws.write = .done)
    (batchDone : draws.batch = .done)
    (keeps : type = .type10 → 10 ≤ (start.imageOf target).next →
      MarksSuffice ((start.imageOf target).store 16 pair.key.val pair.value.val).2) :
    ∃ after, start.putWon source thread target pair.key.val pair.value.val draws type (planOf type) =
        ⟨true, [], after⟩ ∧
      Inserts source start after pair ∧ after.remotePut = start.remotePut := by
  have isData : type.IsData := isType ▸ (wellFormed.intact target (mem_of_divided divided)).isData
  have large : type = .type12 ∨ type = .type14 ∨ type = .type16 →
      ∃ after, start.putWon source thread target pair.key.val pair.value.val draws type (planOf type) =
          ⟨true, [], after⟩ ∧
        Inserts source start after pair ∧ after.remotePut = start.remotePut := by
    intro isLarge
    have inserted := putFor_inserts wellFormed divided isType above below queue isLarge writeDone batchDone
    rw [putFor_eq _ _ _ _ _ _ _ isData] at inserted
    exact inserted
  by_cases room : (start.fetchedReal thread target).next < type.capacity
  · exact inPlace_inserts wellFormed divided isType above below queue writeDone _ room
  · cases type with
    | type10 =>
        have full := not_lt.mp room
        refine morph_inserts wellFormed divided above below isType queue batchDone full (keeps rfl ?_)
        rw [← fetchedReal_next (isType ▸ isData)]
        exact full
    | type12 => exact large (Or.inl rfl)
    | type14 => exact large (Or.inr (Or.inl rfl))
    | type16 => exact large (Or.inr (Or.inr rfl))
    | typeHead => exact absurd isData id
    | typeVar => exact absurd isData id
    | notSet => exact absurd isData id

end Paths

/-! ### The fake head -/

/-- A step that changes nothing of the fake head's image but its link. -/
def HeadKept (before after : ComputeNode) : Prop :=
  ∃ link, after.imageOf SkipList.head = { before.imageOf SkipList.head with rlink := link }

omit [Digest] in
theorem HeadKept.next (kept : HeadKept before after) :
    (after.imageOf SkipList.head).next = (before.imageOf SkipList.head).next := by
  obtain ⟨link, image⟩ := kept
  rw [image]

/-- Putting a node into other chunks leaves the fake head its records. -/
theorem Outgrows.headKept {key value : Str} {level : Level} {type : LinkedNodeType}
    (outgrows : Outgrows source start thread target key value level type moved)
    (wellFormed : WellFormed source start) (isMember : target ∈ start.chain) :
    HeadKept start (moved.release thread target) := by
  have notHead := wellFormed.ne_head isMember
  have headMember : SkipList.head ∈ SkipList.head :: start.chain := List.mem_cons_self
  have headTaken := wellFormed.dataNode_taken headMember
  have notFresh : ∀ remote, RemoteHeap.Reserve source start.heap remote →
      (start.slist.nodes SkipList.head).dataNode ≠ remote := by
    intro remote reserved same
    rw [same] at headTaken
    exact headTaken reserved
  have sameMemory : (moved.release thread target).remote = moved.remote := rfl
  cases outgrows with
  | @grown notLast chosen remote isData rewritten =>
      have move : Moved start.slist (moved.release thread target).slist target remote chosen :=
        rewritten.moved.release thread
      have sameData := move.dataNode SkipList.head
      rw [if_neg notHead.symm] at sameData
      unfold HeadKept imageOf
      rw [sameData, sameMemory, rewritten.memory, Function.update_of_ne (notFresh remote rewritten.fresh)]
      exact wellFormed.relinked_images isMember thread remote headMember
  | @halved isLast halves l r isHalves split =>
      have known := wellFormed.known (List.mem_cons_of_mem SkipList.head isMember)
      have nodes := split.released known.ne
      have headOld : SkipList.head ≠ start.slist.count := (wellFormed.known headMember).ne
      have sameData := ((nodes.others SkipList.head headOld).2.2 notHead.symm).1
      unfold HeadKept imageOf
      rw [sameData, sameMemory, split.memory]
      change ∃ link, Function.update (Function.update _ l _) r _ (start.slist.nodes SkipList.head).dataNode = _
      rw [Function.update_of_ne (notFresh r split.rightFresh.1), Function.update_of_ne (notFresh l split.leftFresh.1)]
      exact wellFormed.relinked_images isMember thread l headMember

/-! ### The queue of the background thread -/

/-- The queued nodes are linked on the bottom level only, and each waits once. -/
def QueueReady (node : ComputeNode) : Prop :=
  ∃ levels, node.slist.Ordered levels ∧
    SkipList.Waiting levels (node.updateQueue.map fun entry => (entry.newNode, entry.level))

omit [Digest] in
theorem QueueReady.of_moved (ready : QueueReady before) {remote : RemotePointer} {type : LinkedNodeType}
    (moved : Moved before.slist after.slist target remote type) (queue : after.updateQueue = before.updateQueue) :
    QueueReady after := by
  obtain ⟨levels, ordered, waiting⟩ := ready
  exact ⟨levels, moved.ordered ordered, queue ▸ waiting⟩

omit [Digest] in
/-- The new node of a split joins the queue unless it stays on the bottom level. -/
theorem QueueReady.split (ready : QueueReady start) {pred left right : LinkedNode} {anchor : Str}
    {leftArgument rightArgument : LinkedNodeType} {requests : List ConcurrencyRequest} {level : Level}
    {l r : RemotePointer}
    (split : SplitInTwo source (start.fetchTwo thread target) thread target pred left right anchor leftArgument
      rightArgument requests level l r moved)
    (divided : start.chain = earlier ++ target :: later)
    (low : ∀ other ∈ earlier ++ [target], start.slist.anchorOf other ≤ anchor)
    (high : ∀ other ∈ later, anchor ≤ start.slist.anchorOf other) : QueueReady (moved.release thread target) := by
  obtain ⟨levels, ordered, waiting⟩ := ready
  rw [chain_of_ordered ordered] at divided
  have apart : levels 0 = (earlier ++ [target]) ++ later := by
    rw [divided, List.append_assoc]
    rfl
  refine ⟨_, split.inserted ordered divided low high, ?_⟩
  have sameQueue : (moved.release thread target).updateQueue = moved.updateQueue := rfl
  rw [sameQueue, split.updateQueue]
  split
  next =>
    apply waiting.insert ordered
    intro place isPlace
    rw [List.mem_singleton.mp isPlace]
    exact apart
  next =>
    rw [List.map_append]
    exact waiting.append ordered apart level.val

omit [Digest] in
/-- The background thread links the first node of the queue. -/
theorem QueueReady.calibrateNext (ready : QueueReady node) : QueueReady node.calibrateNext := by
  obtain ⟨levels, ordered, waiting⟩ := ready
  unfold ComputeNode.calibrateNext
  split
  next => exact ⟨levels, ordered, waiting⟩
  next entry rest isQueue =>
    rw [isQueue] at waiting
    have isFirst : (entry.newNode, entry.level) ∈
        (entry :: rest).map fun entry : CalibrateContext => (entry.newNode, entry.level) := List.mem_cons_self
    refine ⟨_, ordered.calibrate (waiting.bottom _ isFirst) (waiting.lower _ isFirst) entry.level, ?_⟩
    have erased := waiting.erase isFirst
      (fun place (_ : place ∈ List.range' 1 (entry.level - 1)) =>
        (SkipList.below_append_notBelow node.slist (levels place) (node.slist.anchorOf entry.newNode)).symm)
    rw [List.map_cons, List.erase_cons_head] at erased
    exact erased

/-- The queue after a put that moved or split its node. -/
theorem Outgrows.queueReady {level : Level} {type : LinkedNodeType}
    (outgrows : Outgrows source start thread target pair.key.val pair.value.val level type moved)
    (ready : QueueReady start) (wellFormed : WellFormed source start)
    (divided : start.chain = earlier ++ target :: later) (isType : (start.slist.nodes target).type = type)
    (above : start.slist.anchorOf target ≤ keyOf pair)
    (below : ∀ other ∈ later, keyOf pair < start.slist.anchorOf other)
    (full : type.capacity ≤ (start.fetchedReal thread target).next) : QueueReady (moved.release thread target) := by
  cases outgrows with
  | grown notLast isData rewritten =>
      exact ready.of_moved (rewritten.moved.release thread) rewritten.updateQueue
  | halved isLast isHalves split =>
      subst isLast
      -- the anchor of the right half lies between those of its neighbours
      obtain ⟨_, between, next⟩ := wellFormed.halves_between divided isType above below
        (show 0 < 9 by decide) (show 9 < LinkedNodeType.type16.capacity by decide) full
        (start.fetchedReal thread target) ((start.fetchTwo thread target).buffers thread 2)
      rw [isHalves] at between next
      exact ready.split split divided
        (fun other isBefore => (wellFormed.anchor_le divided isBefore).trans between.le)
        (fun other isLater => (next other isLater).le)

/-! ### A put -/

/-- The states after the flush that a put of the only client starts from. -/
structure Serving (source : SegmentSource) (node : ComputeNode) : Prop where
  settled : Settled source node
  wellFormed : WellFormed source node
  queueReady : QueueReady node
  headEmpty : (node.imageOf SkipList.head).next = 0

/-- A winner of both locks meets the same store. -/
theorem Serving.wins (serving : Serving source node) (idle : Idle node) (thread : ThreadId)
    (divided : node.chain = earlier ++ target :: later) :
    ∃ won, (node.drainPending thread).2.tryWinForInsert thread target = (true, won) ∧
      WonInsert node won thread target ∧ Serving source won ∧ won.contents = node.contents ∧
      won.chain = node.chain := by
  have wellFormed := serving.wellFormed
  have isMember := mem_of_divided divided
  obtain ⟨won, isWon, wonInsert⟩ := idle.wins thread (wellFormed.backwardOf_mem isMember).2
  obtain ⟨wonFormed, sameContents, sameChain⟩ := wonInsert.wellFormed wellFormed divided
  have known := wellFormed.known (List.mem_cons_of_mem SkipList.head isMember)
  have sameQueue : won.updateQueue = node.updateQueue := by
    have kept : ((node.drainPending thread).2.tryWinForInsert thread target).2.updateQueue = node.updateQueue := by
      unfold tryWinForInsert
      simp only
      split
      next =>
        split
        next => rfl
        next => rfl
      next => rfl
    rw [isWon] at kept
    exact kept
  have sameHead : won.imageOf SkipList.head = node.imageOf SkipList.head := by
    have sameData := wonInsert.moved.dataNode SkipList.head
    rw [if_neg (wellFormed.ne_head isMember).symm] at sameData
    unfold imageOf
    rw [sameData, wonInsert.remote]
  refine ⟨won, isWon, wonInsert, ⟨?_, wonFormed, ?_, ?_⟩, sameContents, sameChain⟩
  · exact serving.settled.won known (wellFormed.ne_head isMember) wonInsert
  · exact serving.queueReady.of_moved wonInsert.moved sameQueue
  · rw [sameHead]
    exact serving.headEmpty

/-- A put once its locks are won inserts its record, and the store goes on serving. -/
theorem Serving.putWon (serving : Serving source start) {type : LinkedNodeType}
    (isType : (start.slist.nodes target).type = type) (divided : start.chain = earlier ++ target :: later)
    (above : start.slist.anchorOf target ≤ keyOf pair)
    (below : ∀ other ∈ later, keyOf pair < start.slist.anchorOf other)
    (queue : (start.contexts thread).requests = []) (writeDone : draws.write = .done)
    (batchDone : draws.batch = .done)
    (keeps : type = .type10 → 10 ≤ (start.imageOf target).next →
      MarksSuffice ((start.imageOf target).store 16 pair.key.val pair.value.val).2) :
    ∃ after, start.putWon source thread target pair.key.val pair.value.val draws type (planOf type) =
        ⟨true, [], after⟩ ∧
      Serving source after ∧ after.contents.Perm (addNew keyOf pair start.contents) := by
  have wellFormed := serving.wellFormed
  have isMember := mem_of_divided divided
  have notHead := wellFormed.ne_head isMember
  have known := wellFormed.known (List.mem_cons_of_mem SkipList.head isMember)
  have isData : type.IsData := isType ▸ (wellFormed.intact target isMember).isData
  obtain ⟨after, returned, inserts, _⟩ := putWon_inserts wellFormed divided above below isType queue writeDone
    batchDone keeps
  refine ⟨after, returned, ?_, inserts.contents⟩
  by_cases room : (start.fetchedReal thread target).next < type.capacity
  · obtain ⟨written, isWritten, settled, moved, memory⟩ := @Settled.inPlace source start thread target type _
      pair.key.val pair.value.val draws serving.settled known notHead isType queue writeDone (planOf type) room
    have sameQueue := congrArg (fun outcome : PutOutcome => outcome.node.updateQueue)
      (@putWon_inPlace _ source thread target start pair.key.val pair.value.val draws type (planOf type) room
        writeDone ⟨start.fetchedPred thread target, ((start.fetchedReal thread target).store type.capacity
          pair.key.val pair.value.val).2, [], []⟩ (by rw [firstWork_fetched, queue]; rfl) rfl)
    rw [returned] at isWritten sameQueue
    cases isWritten
    refine ⟨settled, inserts.wellFormed, serving.queueReady.of_moved moved sameQueue, ?_⟩
    have sameData := moved.dataNode SkipList.head
    rw [if_neg notHead.symm] at sameData
    unfold imageOf
    rw [sameData, memory, Function.update_of_ne (wellFormed.dataNode_ne List.mem_cons_self
      (List.mem_cons_of_mem _ isMember) notHead.symm)]
    exact serving.headEmpty
  · obtain ⟨replies, moved, isMoved, outgrows⟩ := @Settled.full source start thread target type _ pair.key.val
      pair.value.val draws serving.settled known notHead isData queue batchDone (not_lt.mp room)
    rw [returned] at isMoved
    cases isMoved
    refine ⟨(outgrows.settled serving.settled known notHead).1, inserts.wellFormed, ?_, ?_⟩
    · exact outgrows.queueReady serving.queueReady wellFormed divided isType above below (not_lt.mp room)
    · rw [(outgrows.headKept wellFormed isMember).next]
      exact serving.headEmpty

/-- A put that is led to a data node returns true and inserts its record. -/
theorem Serving.put (serving : Serving source node) (idle : Idle node) (thread : ThreadId)
    (found : node.slist.fuzzySearch pair.key.val = some target) (notHead : target ≠ SkipList.head)
    {flush : FlushDraws} (done : AllWritesDone flush draws) (keeps : node.KeepsRecords pair) :
    ∃ after, node.put source thread pair.key.val pair.value.val flush draws = (.returned true, after) ∧
      Serving source after ∧ after.contents.Perm (addNew keyOf pair node.contents) := by
  have known := idle.closed.fuzzySearch_lt found
  have isData := (serving.settled.placed target known notHead).isData
  obtain ⟨earlier, later, divided, above, below⟩ := serving.wellFormed.routed found isData
  obtain ⟨won, isWon, wonInsert, wonServing, sameContents, sameChain⟩ := serving.wins idle thread divided
  have sameAnchor : ∀ other, won.slist.anchorOf other = node.slist.anchorOf other := wonInsert.moved.anchor
  obtain ⟨_, _, sameType, sameImage⟩ := wonInsert.same
  obtain ⟨after, returned, kept, contents⟩ := @Serving.putWon _ source won thread target earlier later pair draws
    wonServing _ sameType (sameChain.trans divided) (by rw [sameAnchor]; exact above)
    (fun other isLater => by rw [sameAnchor]; exact below other isLater) wonInsert.requests done.write done.batch
    (fun isTen full => by
      rw [sameImage] at full ⊢
      exact keeps target found isTen full)
  refine ⟨after, ?_, kept, ?_⟩
  · unfold ComputeNode.put remotePutCall putDispatcher
    simp only [serving.settled.remotePut, if_true, found, if_pos isData, isWon]
    rw [putFor_eq _ _ _ _ _ _ _ isData, returned]
    rfl
  · rw [← sameContents]
    exact contents

/-- A put after the flush that returns has inserted its record. -/
theorem Serving.put_returned (serving : Serving source node) (idle : Idle node) {flush : FlushDraws}
    (done : AllWritesDone flush draws) (keeps : node.KeepsRecords pair) {result : Bool}
    (returned : node.put source thread pair.key.val pair.value.val flush draws = (.returned result, after)) :
    Serving source after ∧ result = true ∧ after.contents.Perm (addNew keyOf pair node.contents) := by
  obtain ⟨target, found, notHead⟩ := serving.settled.put_routed returned
  obtain ⟨state, isPut, kept, contents⟩ := serving.put idle thread found notHead done keeps
  rw [isPut] at returned
  cases returned
  exact ⟨kept, rfl, contents⟩

omit [Digest] in
/-- The background thread changes upper levels only. -/
theorem calibrateNext_same (node : ComputeNode) (ready : QueueReady node) :
    SkipList.SameNodes node.calibrateNext.slist node.slist ∧ node.calibrateNext.chain = node.chain ∧
      node.calibrateNext.heap = node.heap ∧ node.calibrateNext.remote = node.remote := by
  obtain ⟨levels, ordered, waiting⟩ := ready
  unfold ComputeNode.calibrateNext
  split
  next => exact ⟨SkipList.SameNodes.refl _, rfl, rfl, rfl⟩
  next entry rest isQueue =>
    rw [isQueue] at waiting
    have isFirst : (entry.newNode, entry.level) ∈
        (entry :: rest).map fun entry : CalibrateContext => (entry.newNode, entry.level) := List.mem_cons_self
    have linked := ordered.calibrate (waiting.bottom _ isFirst) (waiting.lower _ isFirst) entry.level
    refine ⟨SkipList.sameNodes_calibrate node.slist entry.newNode entry.level, ?_, rfl, rfl⟩
    -- level 0 is not among the levels that are linked
    have notBottom : 0 ∉ List.range' 1 (entry.level - 1) := by
      intro inRange
      have positive := (List.mem_range'_1.mp inRange).1
      omega
    rw [chain_of_ordered ordered]
    refine (chain_of_ordered linked).trans ?_
    rw [SkipList.insertedLevels, if_neg notBottom]

end ComputeNode

end DiStore.Cluster
