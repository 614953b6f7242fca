import DiStore.Cluster.PutInsertion
import DiStore.Cluster.StageCells

/-!
Contract: whole runs of one client, from `initialize` on, as runs of a map into which records are
only inserted.

Owns: the runs of puts, gets, scans and steps of the background thread (`StoreRun`) with the
records they have put, how each put ends, and that a get reads what was put first.

Does not own: `update`, which writes the wrong slot after the flush (`Cluster.RemoteUpdate`), and
the puts that `StoreRun` rules out: those that repeat an anchor before the flush, and those that
morph a node into a type that is too small.
-/

set_option autoImplicit false

namespace DiStore.Cluster.ComputeNode

open DiStore.Concurrency DiStore.DataLayer DiStore.Library DiStore.Memory DiStore.SearchLayer

variable {source : SegmentSource} {node before after : ComputeNode} {thread : ThreadId}
variable {target : NodeId} {records : List KV} {pair : KV}

/-! ### Calls that read -/

/-- A step that changes nothing but RDMA buffers and contexts. -/
def ReadsOnly (before after : ComputeNode) : Prop :=
  ∃ buffers contexts, after = { before with
    buffers := buffers
    contexts := contexts }

theorem ReadsOnly.refl (node : ComputeNode) : ReadsOnly node node := ⟨_, _, rfl⟩

theorem ReadsOnly.trans {first second third : ComputeNode} (left : ReadsOnly first second)
    (right : ReadsOnly second third) : ReadsOnly first third := by
  rcases left with ⟨_, _, isSecond⟩
  rcases right with ⟨buffers, contexts, isThird⟩
  rw [isSecond] at isThird
  exact ⟨buffers, contexts, isThird⟩

theorem readsOnly_read (node : ComputeNode) (thread : ThreadId) (remote : RemotePointer) (size slot : Nat) :
    ReadsOnly node (node.read thread remote size slot) := ⟨_, _, rfl⟩

theorem readsOnly_scanStart (node : ComputeNode) (thread : ThreadId) (first second : NodeId) :
    ReadsOnly node (scanStart thread node first second).node := by
  unfold scanStart
  exact (readsOnly_read node _ _ _ _).trans (readsOnly_read _ _ _ _ _)

theorem readsOnly_scanLoop (key : Str) (count fuel : Nat) (second : NodeId) (state : ScanState) :
    ReadsOnly state.node (scanLoop thread key count fuel second state).2 := by
  induction fuel generalizing second state with
  | zero => exact ReadsOnly.refl _
  | succ fuel inductionHypothesis =>
      unfold scanLoop
      split
      next =>
        split
        next => exact ReadsOnly.refl _
        next polled isPolled =>
          rw [← pollFetchTwoAsync_node isPolled]
          exact ReadsOnly.refl _
      next first isFirst =>
        split
        next => exact readsOnly_read _ _ _ _ _
        next last isLast =>
          have fetched : ReadsOnly state.node ((state.fetchTwoAsync thread first last).scanBoth key count).node :=
            (readsOnly_read _ _ _ _ _).trans (readsOnly_read _ _ _ _ _)
          simp only
          split
          next => exact fetched
          next polled isPolled =>
            have same := pollFetchTwoAsync_node isPolled
            have reached : ReadsOnly state.node polled.node := by
              rw [same]
              exact fetched
            split
            next => exact reached.trans (inductionHypothesis last polled)
            next => exact reached

theorem readsOnly_scan (node : ComputeNode) (thread : ThreadId) (key : Str) (count : Nat) :
    ReadsOnly node (node.scan thread key count).2 := by
  unfold ComputeNode.scan
  split
  next => exact ReadsOnly.refl _
  next first isFirst =>
    simp only
    split
    next => exact readsOnly_read _ _ _ _ _
    next second isSecond =>
      split
      next => exact (readsOnly_scanStart node thread first second).trans (readsOnly_scanLoop _ _ _ _ _)
      next => exact readsOnly_read _ _ _ _ _

variable [Digest]

theorem readsOnly_get (node : ComputeNode) (thread : ThreadId) (key : Str) :
    ReadsOnly node (node.get thread key).2 := by
  unfold ComputeNode.get
  split
  next =>
    have drained : ReadsOnly node (node.drainPending thread).2 := ⟨_, _, rfl⟩
    simp only
    split
    next => exact drained
    next =>
      split
      next => exact drained.trans (readsOnly_read _ _ _ _ _)
      next => exact drained.trans (readsOnly_read _ _ _ _ _)
  next => exact ReadsOnly.refl _

theorem Staging.of_readsOnly (staging : Staging source before) (reads : ReadsOnly before after) :
    Staging source after := by
  rcases reads with ⟨buffers, contexts, isAfter⟩
  rw [isAfter]
  have unflushed := staging.unflushed
  exact ⟨⟨unflushed.slist, unflushed.sound, unflushed.headTaken, unflushed.staysLocal, unflushed.shape,
    unflushed.tag⟩, staging.queue⟩

theorem Staged.of_readsOnly (staged : Staged source before) (reads : ReadsOnly before after) :
    Staged source after := by
  have staging := staged.staging.of_readsOnly reads
  rcases reads with ⟨buffers, contexts, isAfter⟩
  rw [isAfter] at staging ⊢
  exact ⟨staging, staged.divided, ⟨staged.headReady.taken, staged.headReady.tag⟩⟩

/-! ### Steps that keep nodes, chunks and images -/

/-- The same nodes in the same order, with the same chunks and images. -/
structure SameStore (before after : ComputeNode) : Prop where
  nodes : SkipList.SameNodes after.slist before.slist
  chain : after.chain = before.chain
  heap : after.heap = before.heap
  remote : after.remote = before.remote
  remotePut : after.remotePut = before.remotePut

namespace SameStore

variable (same : SameStore before after)

include same

omit [Digest] in
theorem image (id : NodeId) : after.imageOf id = before.imageOf id := by
  unfold imageOf
  rw [same.remote, same.nodes.dataNode]

omit [Digest] in
theorem cells : after.cells = before.cells := by
  unfold ComputeNode.cells
  rw [same.chain]
  apply List.map_congr_left
  intro id _
  unfold cellOf
  rw [same.image, SkipList.anchorOf, SkipList.anchorOf, same.nodes.anchor]

omit [Digest] in
theorem contents : after.contents = before.contents := congrArg contentsOf same.cells

omit [Digest] in
theorem inRegion (id : NodeId) (address : Nat) : after.InRegion id address ↔ before.InRegion id address := by
  unfold InRegion
  rw [same.nodes.dataNode, same.nodes.type]

omit [Digest] in
theorem settled (settled : Settled source before) : Settled source after := by
  constructor
  case remotePut => exact same.remotePut.trans settled.remotePut
  case sound =>
    rw [same.heap]
    exact settled.sound
  case headType => exact (same.nodes.type _).trans settled.headType
  case headTaken =>
    rw [same.heap, same.nodes.dataNode]
    exact settled.headTaken
  case placed =>
    intro id known isOther
    rw [same.nodes.count] at known
    apply (settled.placed id known isOther).kept (same.nodes.dataNode id) (same.nodes.type id)
      (same.nodes.backward id) _ same.nodes.count.ge
    rw [same.heap]
    exact fun _ reserved => reserved

theorem wellFormed (wellFormed : WellFormed source before) (linked : ∃ levels, after.slist.Ordered levels) :
    WellFormed source after := by
  have regions := same.inRegion
  constructor
  case linked => exact linked
  case partitioned =>
    rw [same.cells]
    exact wellFormed.partitioned
  case intact =>
    rw [same.chain]
    intro id isMember
    have intact := wellFormed.intact id isMember
    constructor
    · rw [same.nodes.type]
      exact intact.isData
    · rw [same.image, same.nodes.type]
      exact intact.tag
    · rw [same.image, same.nodes.type]
      exact intact.fits
    · rw [same.image]
      exact intact.marked
  case backward =>
    rw [same.chain]
    intro id isMember
    obtain ⟨pred, isPred, place⟩ := wellFormed.backward id isMember
    refine ⟨pred, (same.nodes.backward id).trans isPred, ?_⟩
    rw [SkipList.anchorOf, SkipList.anchorOf, same.nodes.anchor, same.nodes.anchor]
    exact place
  case headType => exact (same.nodes.type _).trans wellFormed.headType
  case headTag =>
    rw [same.image]
    exact wellFormed.headTag
  case apart =>
    rw [same.chain]
    intro left leftMember right rightMember differ address inLeft inRight
    exact wellFormed.apart left leftMember right rightMember differ address ((regions _ _).mp inLeft)
      ((regions _ _).mp inRight)
  case sound =>
    rw [same.heap]
    exact wellFormed.sound
  case taken =>
    rw [same.chain, same.heap]
    intro id isMember address inRegion
    exact wellFormed.taken id isMember address ((regions _ _).mp inRegion)

theorem serving (serving : Serving source before) (ready : QueueReady after) : Serving source after := by
  obtain ⟨levels, ordered, _⟩ := id ready
  refine ⟨same.settled serving.settled, same.wellFormed serving.wellFormed ⟨levels, ordered⟩, ready, ?_⟩
  rw [same.image]
  exact serving.headEmpty

end SameStore

theorem Serving.of_readsOnly (serving : Serving source before) (reads : ReadsOnly before after) :
    Serving source after ∧ after.contents = before.contents := by
  rcases reads with ⟨buffers, contexts, isAfter⟩
  have same : SameStore before after := by
    rw [isAfter]
    exact ⟨SkipList.SameNodes.refl _, rfl, rfl, rfl, rfl⟩
  refine ⟨same.serving serving ?_, same.contents⟩
  rw [isAfter]
  exact serving.queueReady

/-- The background thread serves the same map. -/
theorem Serving.calibrateNext (serving : Serving source node) :
    Serving source node.calibrateNext ∧ node.calibrateNext.contents = node.contents := by
  obtain ⟨nodes, chain, heap, remote⟩ := node.calibrateNext_same serving.queueReady
  have sameFlag : node.calibrateNext.remotePut = node.remotePut :=
    serving.settled.calibrateNext.remotePut.trans serving.settled.remotePut.symm
  have same : SameStore node node.calibrateNext := ⟨nodes, chain, heap, remote, sameFlag⟩
  exact ⟨same.serving serving serving.queueReady.calibrateNext, same.contents⟩

/-! ### Reading after the flush -/

/-- Every search leads somewhere: to the fake head if the key is below all anchors, else to a data
node. -/
theorem WellFormed.leads (wellFormed : WellFormed source node) (key : Str) :
    node.slist.fuzzySearch key = some SkipList.head ∧ (∀ id ∈ node.chain, key < node.slist.anchorOf id) ∨
      ∃ target ∈ node.chain, node.slist.fuzzySearch key = some target ∧ node.slist.anchorOf target ≤ key := by
  obtain ⟨levels, ordered⟩ := wellFormed.linked
  rw [ordered.fuzzySearch_eq key]
  have spec := route_spec SkipList.head key (ordered.sorted 0)
  rw [← chain_of_ordered ordered] at spec ⊢
  rcases spec with ⟨isHead, above⟩ | ⟨isMember, atMost, _⟩
  · exact Or.inl ⟨congrArg some isHead, above⟩
  · exact Or.inr ⟨_, isMember, rfl, atMost⟩

omit [Digest] in
/-- A key below every anchor has no record. -/
theorem recordOf_below {cells : List (Cell Str KV)} {key : Str} (partitioned : Partitioned keyOf cells)
    (below : ∀ cell ∈ cells, key < cell.anchor) : recordOf keyOf key (contentsOf cells) = none := by
  rw [recordOf_eq_none_iff]
  intro isMember
  rcases List.mem_map.mp isMember with ⟨record, isRecord, isKey⟩
  rcases List.mem_flatMap.mp isRecord with ⟨cell, isCell, inCell⟩
  have above := (partitioned.sound cell isCell).above record inCell
  rw [isKey] at above
  exact absurd (below cell isCell) (not_lt.mpr above)

/-- `get` after the flush: it returns what it finds if the checksum matches, and spins otherwise. -/
theorem get_remote (node : ComputeNode) (thread : ThreadId) {key : Str} (remotePut : node.remotePut = true)
    (found : node.slist.fuzzySearch key = some target) :
    (node.get thread key).1 =
      if crcValidate (node.fetched thread target) (node.slist.nodes target).type = (node.fetched thread target).crc
      then .returned ((node.fetched thread target).find key) else .spins := by
  have isBuffer : ((node.drainPending thread).2.fetchAs thread (node.slist.nodes target).dataNode).buffers
      thread 0 = node.fetched thread target := by
    simp [drainPending, setRequests, fetchAs, read, setSlot, fetched]
  have sameSlist : (node.drainPending thread).2.slist = node.slist := rfl
  have fetchedSlist : ((node.drainPending thread).2.fetchAs thread (node.slist.nodes target).dataNode).slist =
      node.slist := rfl
  unfold ComputeNode.get
  simp only [remotePut, if_true, sameSlist, found, fetchedSlist, isBuffer]
  split
  next => rfl
  next => rfl

/-- The image of the node that a search leads to has what the map has for the key. -/
theorem Serving.find_eq (serving : Serving source node) {key : Bytes16}
    (found : node.slist.fuzzySearch key.val = some target) :
    (node.imageOf target).next ≤ 16 ∧
      (node.imageOf target).find key.val = (recordOf keyOf key.val node.contents).map KV.value := by
  have wellFormed := serving.wellFormed
  have partitioned := wellFormed.partitioned
  rcases wellFormed.leads key.val with ⟨isFound, below⟩ | ⟨other, isMember, isFound, above⟩
  · rw [found] at isFound
    cases isFound
    refine ⟨serving.headEmpty.trans_le (Nat.zero_le _), ?_⟩
    rw [LinkedNode.find_of_next_zero serving.headEmpty, ComputeNode.contents, recordOf_below partitioned]
    · rfl
    · intro cell isCell
      rcases List.mem_map.mp isCell with ⟨id, inChain, isCell⟩
      rw [← isCell]
      exact below id inChain
  · rw [found] at isFound
    cases isFound
    have intact := wellFormed.intact target isMember
    obtain ⟨earlier, later, divided, _, below⟩ := wellFormed.routed found intact.isData
    refine ⟨intact.fits.trans (capacity_le_sixteen _), ?_⟩
    have cells : node.cells =
        earlier.map node.cellOf ++ node.cellOf target :: later.map node.cellOf := by
      rw [ComputeNode.cells, divided, List.map_append, List.map_cons]
    have sound := partitioned.sound (node.cellOf target) (List.mem_map_of_mem isMember)
    have distinct : (node.imageOf target).DistinctKeys := by
      rw [LinkedNode.distinctKeys_iff_records]
      have keys := sound.distinct
      rw [show (node.cellOf target).records.map keyOf =
        ((node.imageOf target).records.map KV.key).map Subtype.val from (List.map_map).symm] at keys
      exact keys.of_map _
    rw [cells] at partitioned
    rw [LocalStage.find_eq_recordOf intact.marked distinct, ComputeNode.contents, cells]
    have routed := @Partitioned.recordOf_contents _ _ _ keyOf key.val (node.cellOf target) (later.map node.cellOf)
      (earlier.map node.cellOf) partitioned above (fun next isNext => by
        rcases List.mem_map.mp isNext with ⟨id, isLater, isNext⟩
        rw [← isNext]
        exact below id isLater)
    rw [routed]
    rfl

/-- A get of a flushed store that returns has read the map. -/
theorem Serving.get_returned (serving : Serving source node) {key : Bytes16} {result : Option Bytes16}
    (returned : node.get thread key.val = (.returned result, after)) :
    result = (recordOf keyOf key.val node.contents).map KV.value := by
  obtain ⟨target, found⟩ : ∃ target, node.slist.fuzzySearch key.val = some target := by
    rcases serving.wellFormed.leads key.val with ⟨found, _⟩ | ⟨target, _, found, _⟩
    · exact ⟨_, found⟩
    · exact ⟨_, found⟩
  obtain ⟨bounded, value⟩ := serving.find_eq found
  have outcome := node.get_remote thread serving.settled.remotePut found
  rw [returned] at outcome
  split at outcome
  next =>
    cases outcome
    rw [← value]
    apply LinkedNode.find_overlay
    have covers := pairsOffset_le_sizeofNode LinkedNodeType.isData16
    change pairsOffset + 32 * 16 ≤ _ at covers
    change pairsOffset + 32 * (node.imageOf target).next ≤ _
    omega
  next => cases outcome

/-! ### Runs -/

/-- The puts of a run: before the flush they repeat no anchor, and after it a full node of type 10
becomes large enough. -/
def KeepsMap (node : ComputeNode) (pair : KV) : Prop :=
  if node.remotePut then node.KeepsRecords pair else node.stage.Separates pair.key.val

/-- The states of one client with the records it has put so far, oldest first. All writes are done,
and the remote memory that the fake head is allocated in is zeroed. -/
inductive StoreRun (source : SegmentSource) (thread : ThreadId) : ComputeNode → List KV → Prop where
  | initialized (main : ThreadId) (memory : RemotePointer → LinkedNode)
      (buffers : ThreadId → Nat → LinkedNode) (heap : Fin 2 → LinkedNode)
      (zeroed : memory (initialized source main memory buffers heap).fakeHead = .zeroed) :
      StoreRun source thread (initialized source main memory buffers heap) []
  | put {node after : ComputeNode} {records : List KV} (earlier : StoreRun source thread node records) (pair : KV)
      {flush : FlushDraws} {draws : PutDraws} (done : AllWritesDone flush draws) (keeps : node.KeepsMap pair)
      {result : Bool}
      (returned : node.put source thread pair.key.val pair.value.val flush draws = (.returned result, after)) :
      StoreRun source thread after (records ++ [pair])
  | get {node after : ComputeNode} {records : List KV} (earlier : StoreRun source thread node records)
      (key : Bytes16) {result : Option Bytes16} (returned : node.get thread key.val = (.returned result, after)) :
      StoreRun source thread after records
  | scan {node after : ComputeNode} {records : List KV} (earlier : StoreRun source thread node records)
      (key : Bytes16) (count : Nat) {total : Nat}
      (returned : node.scan thread key.val count = (.returned total, after)) : StoreRun source thread after records
  | calibrate {node : ComputeNode} {records : List KV} (earlier : StoreRun source thread node records) :
      StoreRun source thread node.calibrateNext records

theorem StoreRun.clientRun (run : StoreRun source thread node records) : ClientRun source thread node := by
  induction run with
  | initialized main memory buffers heap _ => exact .initialized main memory buffers heap
  | put _ pair _ _ returned inductionHypothesis =>
      exact inductionHypothesis.step (.put pair.key pair.value _ _ returned)
  | get _ key returned inductionHypothesis => exact inductionHypothesis.step (.get key returned)
  | scan _ key count returned inductionHypothesis => exact inductionHypothesis.step (.scan key count returned)
  | calibrate _ inductionHypothesis => exact inductionHypothesis.step .calibrate

/-- The map of a run, before the flush or after it. -/
inductive Holds (source : SegmentSource) (node : ComputeNode) (records : List KV) : Prop where
  | staged (staged : Staged source node) (headEmpty : (node.imageOf SkipList.head).next = 0)
      (contents : (contentsOf node.stage.cells).Perm (addAll keyOf records))
  | serving (serving : Serving source node) (contents : node.contents.Perm (addAll keyOf records))

omit [Digest] in
/-- A record added to the map of a run. -/
theorem perm_added {contents added : List KV} (held : contents.Perm (addAll keyOf records))
    (isAdded : added.Perm (addNew keyOf pair contents)) : added.Perm (addAll keyOf (records ++ [pair])) := by
  rw [addAll_append_singleton]
  exact isAdded.trans (addNew_perm held)

/-- A put before the flush that returns has inserted its record. -/
theorem Staged.put_returned (staged : Staged source node) (headEmpty : (node.imageOf SkipList.head).next = 0)
    {flush : FlushDraws} {draws : PutDraws} (done : AllWritesDone flush draws)
    (separates : node.stage.Separates pair.key.val) (held : (contentsOf node.stage.cells).Perm (addAll keyOf records))
    {result : Bool}
    (returned : node.put source thread pair.key.val pair.value.val flush draws = (.returned result, after)) :
    Holds source after (records ++ [pair]) ∧ result = true := by
  cases stays : node.stage.quickPut pair.key.val pair.value.val with
  | some stage =>
      have sameHead : after.imageOf SkipList.head = node.imageOf SkipList.head := by
        unfold ComputeNode.put at returned
        rw [if_neg (by rw [staged.staging.unflushed.staysLocal]; decide),
          quickPut_stays staged.staging.unflushed.staysLocal stays] at returned
        cases returned
        rfl
      obtain ⟨kept, isTrue, added⟩ := @Staged.put_stays _ source node after thread staged pair.key pair.value flush
        draws stage separates stays result returned
      exact ⟨.staged kept (sameHead ▸ headEmpty) (perm_added held added), isTrue⟩
  | none =>
      obtain ⟨wellFormed, isTrue, _, queue, sameHead, added⟩ := @Staged.put_flushes _ source node after thread
        staged pair.key pair.value flush draws done separates stays result returned
      have settled : Settled source after := by
        obtain ⟨larger, smaller, flushed⟩ := staged.staging.put_flushes done stays returned
        exact flushed.settled staged.staging.unflushed.slist (@Staging.picked _ _ _ staged.staging pair.key pair.value stays).2.1
      have ready : QueueReady after := by
        obtain ⟨levels, ordered⟩ := wellFormed.linked
        refine ⟨levels, ordered, ?_⟩
        rw [queue]
        exact ⟨List.nodup_nil, fun _ isEntry => absurd isEntry List.not_mem_nil,
          fun _ isEntry => absurd isEntry List.not_mem_nil⟩
      exact ⟨.serving ⟨settled, wellFormed, ready, sameHead ▸ headEmpty⟩ (perm_added held added), isTrue⟩

/-- A put of a run inserts its record, and returns true. -/
theorem Holds.put (held : Holds source node records) (idle : Idle node) {flush : FlushDraws} {draws : PutDraws}
    (done : AllWritesDone flush draws) (keeps : node.KeepsMap pair) {result : Bool}
    (returned : node.put source thread pair.key.val pair.value.val flush draws = (.returned result, after)) :
    Holds source after (records ++ [pair]) ∧ result = true := by
  unfold KeepsMap at keeps
  cases held with
  | staged staged headEmpty contents =>
      rw [if_neg (by rw [staged.staging.unflushed.staysLocal]; decide)] at keeps
      exact staged.put_returned headEmpty done keeps contents returned
  | serving serving contents =>
      rw [if_pos serving.settled.remotePut] at keeps
      obtain ⟨kept, isTrue, added⟩ := serving.put_returned idle done keeps returned
      exact ⟨.serving kept (perm_added contents added), isTrue⟩

theorem Holds.of_readsOnly (held : Holds source before records) (reads : ReadsOnly before after) :
    Holds source after records := by
  cases held with
  | staged staged headEmpty contents =>
      have kept := staged.of_readsOnly reads
      rcases reads with ⟨buffers, contexts, isAfter⟩
      refine .staged kept ?_ ?_
      · rw [isAfter]
        exact headEmpty
      · rw [isAfter]
        exact contents
  | serving serving contents =>
      obtain ⟨kept, same⟩ := serving.of_readsOnly reads
      exact .serving kept (same ▸ contents)

theorem Holds.calibrateNext (held : Holds source node records) : Holds source node.calibrateNext records := by
  cases held with
  | staged staged headEmpty contents =>
      have unchanged : node.calibrateNext = node := by
        unfold ComputeNode.calibrateNext
        rw [staged.staging.queue]
      rw [unchanged]
      exact .staged staged headEmpty contents
  | serving serving contents =>
      obtain ⟨kept, same⟩ := serving.calibrateNext
      exact .serving kept (same ▸ contents)

/-- Every state of a run holds the map of what was put. -/
theorem StoreRun.holds (run : StoreRun source thread node records) : Holds source node records := by
  induction run with
  | initialized main memory buffers heap zeroed =>
      have untagged : (memory (ComputeNode.initialized source main memory buffers heap).fakeHead).type = .notSet := by
        rw [zeroed]
        rfl
      refine .staged (staged_initialized source main memory buffers heap untagged) ?_ (List.Perm.refl [])
      change (memory (ComputeNode.initialized source main memory buffers heap).fakeHead).next = 0
      rw [zeroed]
      rfl
  | put earlier pair done keeps returned inductionHypothesis =>
      exact (inductionHypothesis.put earlier.clientRun.idle done keeps returned).1
  | @get node after records _ key result returned inductionHypothesis =>
      have reads := readsOnly_get node thread key.val
      rw [returned] at reads
      exact inductionHypothesis.of_readsOnly reads
  | @scan node after records _ key count total returned inductionHypothesis =>
      have reads := readsOnly_scan node thread key.val count
      rw [returned] at reads
      exact inductionHypothesis.of_readsOnly reads
  | calibrate _ inductionHypothesis => exact inductionHypothesis.calibrateNext

/-- The records of the local stage, or of the flushed store. -/
def mapOf (node : ComputeNode) : List KV :=
  if node.remotePut then node.contents else contentsOf node.stage.cells

theorem Holds.mapOf (held : Holds source node records) : node.mapOf.Perm (addAll keyOf records) := by
  unfold ComputeNode.mapOf
  cases held with
  | staged staged _ contents =>
      rw [if_neg (by rw [staged.staging.unflushed.staysLocal]; decide)]
      exact contents
  | serving serving contents =>
      rw [if_pos serving.settled.remotePut]
      exact contents

theorem Holds.flushed (held : Holds source node records) (flushed : node.remotePut = true) :
    Serving source node ∧ node.contents.Perm (addAll keyOf records) := by
  cases held with
  | staged staged _ _ =>
      rw [staged.staging.unflushed.staysLocal] at flushed
      cases flushed
  | serving serving contents => exact ⟨serving, contents⟩

/-- A get reads the map. -/
theorem Holds.get (held : Holds source node records) {key : Bytes16} {result : Option Bytes16}
    (returned : node.get thread key.val = (.returned result, after)) :
    result = (recordOf keyOf key.val node.mapOf).map KV.value := by
  unfold ComputeNode.mapOf
  cases held with
  | staged staged _ _ =>
      have staysLocal : ¬ node.remotePut = true := by
        rw [staged.staging.unflushed.staysLocal]
        decide
      unfold ComputeNode.get at returned
      rw [if_neg staysLocal] at returned ⊢
      cases returned
      exact staged.divided.get key
  | serving serving _ =>
      rw [if_pos serving.settled.remotePut]
      exact serving.get_returned returned

/-- Whatever a client has put, each key has the record that was put first: these records are the
contents of its store, and a get that returns reads them. -/
theorem first_put_is_read (run : StoreRun source thread node records) :
    node.mapOf.Perm (addAll keyOf records) ∧
      ∀ (key : Bytes16) (result : Option Bytes16) (after : ComputeNode),
        node.get thread key.val = (.returned result, after) →
          result = (recordOf keyOf key.val records).map KV.value := by
  have held := run.holds
  refine ⟨held.mapOf, ?_⟩
  intro key result after returned
  have distinct : (node.mapOf.map keyOf).Nodup := (held.mapOf.map keyOf).nodup_iff.mpr (nodup_addAll records)
  rw [held.get returned, recordOf_perm held.mapOf distinct, recordOf_addAll]

/-- How a put of a run ends: it throws if the store is flushed and the key is below all anchors,
and returns true otherwise; then its record is in the store unless the key has one. -/
theorem put_inserts_or_throws (run : StoreRun source thread node records) (pair : KV) {flush : FlushDraws}
    {draws : PutDraws} (done : AllWritesDone flush draws) (keeps : node.KeepsMap pair) :
    let outcome := node.put source thread pair.key.val pair.value.val flush draws
    if node.remotePut = true ∧ ∀ id ∈ node.chain, pair.key.val < node.slist.anchorOf id then
      outcome = (.thrown, node)
    else outcome.1 = .returned true ∧ outcome.2.mapOf.Perm (addNew keyOf pair node.mapOf) := by
  intro outcome
  have held := run.holds
  have idle := run.clientRun.idle
  have inserted : outcome.1 = .returned true → outcome.2.mapOf.Perm (addNew keyOf pair node.mapOf) := by
    intro isTrue
    have kept := (held.put idle done keeps (Prod.ext isTrue rfl)).1
    have added := kept.mapOf
    rw [addAll_append_singleton] at added
    exact added.trans (addNew_perm held.mapOf.symm)
  cases held with
  | staged staged _ _ =>
      have staysLocal : ¬ node.remotePut = true := by
        rw [staged.staging.unflushed.staysLocal]
        decide
      rw [if_neg (fun both => staysLocal both.1)]
      suffices isTrue : outcome.1 = .returned true from ⟨isTrue, inserted isTrue⟩
      change (node.put source thread pair.key.val pair.value.val flush draws).1 = _
      unfold ComputeNode.put
      rw [if_neg staysLocal]
      cases stays : node.stage.quickPut pair.key.val pair.value.val with
      | some stage => rw [quickPut_stays staged.staging.unflushed.staysLocal stays]
      | none =>
          have unflushed := staged.staging.unflushed
          obtain ⟨_, _, _, isFlush, _⟩ := flush_spec
            { node with stage := (node.stage.quickPutPickNode pair.key.val).1 } thread unflushed.sound
            unflushed.headTaken (node.stage.quickPutPickNode pair.key.val).2 pair.key.val pair.value.val done.larger
            done.smaller
          rw [quickPut_flushes unflushed stays, isFlush]
  | serving serving _ =>
      have remotePut := serving.settled.remotePut
      have wellFormed := serving.wellFormed
      rcases wellFormed.leads pair.key.val with ⟨found, below⟩ | ⟨target, isMember, found, above⟩
      · rw [if_pos ⟨remotePut, below⟩]
        change node.put source thread pair.key.val pair.value.val flush draws = _
        unfold ComputeNode.put remotePutCall putDispatcher
        simp only [remotePut, if_true, found, serving.settled.headType]
        rfl
      · rw [if_neg (fun both => absurd (both.2 target isMember) (not_lt.mpr above))]
        unfold KeepsMap at keeps
        rw [if_pos remotePut] at keeps
        obtain ⟨after, isPut, _⟩ := serving.put idle thread found (wellFormed.ne_head isMember) done keeps
        have isTrue : outcome.1 = .returned true := congrArg Prod.fst isPut
        exact ⟨isTrue, inserted isTrue⟩

end DiStore.Cluster.ComputeNode

/-! ### Thirteen puts and a key below all anchors -/

namespace DiStore.Cluster.ComputeNode

open DiStore.DataLayer DiStore.Library DiStore.Memory

section Trace

variable [Digest]

instance decidableMarksSuffice (buffer : LinkedNode) : Decidable (MarksSuffice buffer) :=
  inferInstanceAs (Decidable (_ ∨ _))

/-- The node that a put is led to, if any, decides. -/
instance decidableKeepsRecords (node : ComputeNode) (pair : KV) : Decidable (node.KeepsRecords pair) :=
  inferInstanceAs (Decidable (∀ target ∈ node.slist.fuzzySearch pair.key.val,
    (node.slist.nodes target).type = .type10 → 10 ≤ (node.imageOf target).next →
      MarksSuffice ((node.imageOf target).store 16 pair.key.val pair.value.val).2))

instance decidableKeepsMap (node : ComputeNode) (pair : KV) : Decidable (node.KeepsMap pair) :=
  inferInstanceAs (Decidable (if node.remotePut then node.KeepsRecords pair else node.stage.Separates pair.key.val))

/-- Puts, each of which has to keep the map and to return. -/
def storeAll (node : ComputeNode) (records : List KV) : Option ComputeNode :=
  records.foldlM
    (fun node pair =>
      if node.KeepsMap pair then
        match node.put (.memoryNode 0) 0 pair.key.val pair.value.val drawsDone writesDone with
        | (.returned _, after) => some after
        | _ => none
      else none)
    node

variable {node after : ComputeNode} {put : List KV}

theorem StoreRun.storeAll {records : List KV} (run : StoreRun (.memoryNode 0) 0 node put)
    (reached : storeAll node records = some after) : StoreRun (.memoryNode 0) 0 after (put ++ records) := by
  induction records generalizing node put with
  | nil =>
      cases reached
      rw [List.append_nil]
      exact run
  | cons pair records inductionHypothesis =>
      unfold ComputeNode.storeAll at reached
      rw [List.foldlM_cons, Option.bind_eq_bind, Option.bind_eq_some_iff] at reached
      rcases reached with ⟨next, isNext, later⟩
      by_cases keeps : node.KeepsMap pair
      · rw [if_pos keeps] at isNext
        split at isNext
        next result middle returned =>
          cases isNext
          have extended := inductionHypothesis (run.put pair ⟨rfl, rfl, rfl, rfl⟩ keeps returned) later
          rw [List.append_assoc] at extended
          exact extended
        next => cases isNext
      · rw [if_neg keeps] at isNext
        cases isNext

end Trace

attribute [local instance] Digests.source

/-- A record of equal bytes. -/
def filled (key value : UInt8) : KV := ⟨.fill key, .fill value⟩

/-- Eleven puts fill the local stage, the twelfth flushes it, and the last one repeats its key. -/
def thirteenPuts : List KV := byteOffers 97 11 ++ [filled 120 2, filled 120 3]

def storeThirteen : Option ComputeNode :=
  storeAll (initialized (.memoryNode 0) 0 (fun _ => .zeroed) (fun _ _ => .zeroed) fun _ => .zeroed) thirteenPuts

theorem storeThirteen_run {node : ComputeNode} (reached : storeThirteen = some node) :
    StoreRun (.memoryNode 0) 0 node thirteenPuts :=
  (StoreRun.initialized 0 (fun _ => .zeroed) (fun _ _ => .zeroed) (fun _ => .zeroed) rfl).storeAll reached

/-- The flushed store holds the key of bytes `120` with the value that was put first. -/
theorem thirteen_puts_read :
    ∃ node, storeThirteen = some node ∧ node.remotePut = true ∧
      node.mapOf.Perm (addAll keyOf thirteenPuts) ∧ recordOf keyOf (Bytes16.fill 120).val thirteenPuts =
        some (filled 120 2) ∧
      ∀ (key : Bytes16) (result : Option Bytes16) (after : ComputeNode),
        node.get 0 key.val = (.returned result, after) →
          result = (recordOf keyOf key.val thirteenPuts).map KV.value := by
  have facts : storeThirteen.map (fun node => decide (node.remotePut = true)) = some true := by decide +kernel
  obtain ⟨node, reached, flushed⟩ := Option.map_eq_some_iff.mp facts
  obtain ⟨contents, reads⟩ := first_put_is_read (storeThirteen_run reached)
  exact ⟨node, reached, of_decide_eq_true flushed, contents, by decide +kernel, reads⟩

/-- A key below both anchors is routed to the fake head. -/
theorem fourteenth_put_throws :
    ∃ node, storeThirteen = some node ∧
      node.put (.memoryNode 0) 0 (Bytes16.fill 1).val (Bytes16.fill 4).val drawsDone writesDone =
        (.thrown, node) := by
  have facts : storeThirteen.map (fun node =>
      (decide (node.KeepsMap (filled 1 4)),
        decide (node.remotePut = true ∧ ∀ id ∈ node.chain, (Bytes16.fill 1).val < node.slist.anchorOf id))) =
      some (true, true) := by decide +kernel
  obtain ⟨node, reached, isNode⟩ := Option.map_eq_some_iff.mp facts
  simp only [Prod.mk.injEq, decide_eq_true_eq] at isNode
  have outcome := @put_inserts_or_throws (.memoryNode 0) node 0 _ _ (storeThirteen_run reached) (filled 1 4)
    drawsDone writesDone ⟨rfl, rfl, rfl, rfl⟩ isNode.1
  exact ⟨node, reached, (if_pos isNode.2).mp outcome⟩

end DiStore.Cluster.ComputeNode
