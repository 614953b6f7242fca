import DiStore.Cluster.PutRun
import DiStore.Library.InsertOnly

/-!
Contract: the local stage as two cells of one map, up to the flush.

Owns: the cells of the local stage, the puts that keep a key in one cell
(`LocalStage.Separates`), how such a put adds its record, and the well-formed store that
a flush makes of the stage.

Does not own: the anchors that puts repeat. A put of the second anchor goes to the first
node, and a second put of the only key makes both anchors that key.
-/

set_option autoImplicit false

namespace DiStore.Cluster

open DiStore.Concurrency DiStore.DataLayer DiStore.Library DiStore.Memory DiStore.SearchLayer

namespace LocalStage

/-- A local node with its anchor. -/
def cellAt (stage : LocalStage) (slot : Fin 2) : Cell Str KV := ⟨stage.anchors slot, (stage.nodes slot).records⟩

/-- The nodes that have an anchor. -/
def cells (stage : LocalStage) : List (Cell Str KV) :=
  if stage.anchors 0 = [] then []
  else if stage.anchors 1 = [] then [stage.cellAt 0]
  else [stage.cellAt 0, stage.cellAt 1]

/-- The key is neither the second anchor nor the only key. -/
def Separates (stage : LocalStage) (key : Str) : Prop :=
  stage.anchors 1 ≠ key ∧ (stage.anchors 1 = [] → stage.anchors 0 ≠ key)

instance decidableSeparates (stage : LocalStage) (key : Str) : Decidable (stage.Separates key) :=
  inferInstanceAs (Decidable (_ ∧ _))

/-- The picked node is the cell that is responsible for the key. -/
structure Receives (stage picked : LocalStage) (slot : Fin 2) (key : Str) (earlier later : List (Cell Str KV)) :
    Prop where
  partitioned : Partitioned ComputeNode.keyOf (earlier ++ picked.cellAt slot :: later)
  contents : contentsOf (earlier ++ picked.cellAt slot :: later) = contentsOf stage.cells
  above : picked.anchors slot ≤ key
  below : ∀ next ∈ later, key < next.anchor
  cells : ∀ node : LinkedNode,
    (picked.setNode slot node).cells = earlier ++ ⟨picked.anchors slot, node.records⟩ :: later

section Nodes

variable [Digest] {stage : LocalStage}

omit [Digest] in
/-- A node that holds no key has no records. -/
theorem records_nil {node : LinkedNode} (holdsNone : ∀ key, ¬ node.Holds key) : node.records = [] := by
  apply List.eq_nil_iff_forall_not_mem.mpr
  intro pair isRecord
  exact holdsNone pair.key (LinkedNode.holds_iff_records.mpr ⟨pair, isRecord, rfl⟩)

/-- Before the second anchor the second node is empty. -/
theorem Shape.second_empty (shape : stage.Shape) (noSecond : stage.anchors 1 = []) : (stage.nodes 1).records = [] := by
  apply records_nil
  intro key holds
  exact absurd (shape.single noSecond 1 key holds).1 (by decide)

theorem Shape.first_empty (shape : stage.Shape) (noFirst : stage.anchors 0 = []) : (stage.nodes 0).records = [] := by
  apply records_nil
  intro key holds
  have isAnchor := (shape.single (shape.unset noFirst) 0 key holds).2
  exact key.ne_nil (isAnchor.symm.trans noFirst)

/-- Before the second anchor the first node holds at most its anchor. -/
theorem Shape.first_single (shape : stage.Shape) (noSecond : stage.anchors 1 = []) {pair : KV}
    (isRecord : pair ∈ (stage.nodes 0).records) : ComputeNode.keyOf pair = stage.anchors 0 :=
  (shape.single noSecond 0 pair.key (LinkedNode.holds_iff_records.mpr ⟨pair, isRecord, rfl⟩)).2.symm

/-! ### Picking a node -/

omit [Digest] in
theorem cells_second {stage : LocalStage} (hasFirst : stage.anchors 0 ≠ []) (hasSecond : stage.anchors 1 ≠ []) :
    stage.cells = [stage.cellAt 0, stage.cellAt 1] := by
  rw [cells, if_neg hasFirst, if_neg hasSecond]

omit [Digest] in
theorem cells_first {stage : LocalStage} (hasFirst : stage.anchors 0 ≠ []) (noSecond : stage.anchors 1 = []) :
    stage.cells = [stage.cellAt 0] := by
  rw [cells, if_neg hasFirst, if_pos noSecond]

/-- A put of a key that the stage separates is received by the responsible cell. -/
theorem Shape.receives (shape : stage.Shape) (partitioned : Partitioned ComputeNode.keyOf stage.cells)
    {key : Bytes16} (separates : stage.Separates key.val) {picked : LocalStage} {slot : Fin 2}
    (pick : Pick stage key.val picked slot) :
    ∃ earlier later, Receives stage picked slot key.val earlier later := by
  have keyNotNil := key.ne_nil
  cases pick with
  | first noFirst =>
      have noSecond := shape.unset noFirst
      have empty : (stage.setAnchor 0 key.val).cellAt 0 = ⟨key.val, []⟩ := by
        simp [cellAt, setAnchor, shape.first_empty noFirst]
      refine ⟨[], [], ?_, ?_, ?_, ?_, ?_⟩
      · rw [empty]
        exact partitioned_singleton (sound_empty _)
      · rw [empty, cells, if_pos noFirst]
        rfl
      · simp [setAnchor]
      · exact fun _ isNext => absurd isNext List.not_mem_nil
      · intro node
        simp [cells, cellAt, setAnchor, setNode, noSecond, keyNotNil]
  | swap hasFirst below noSecond =>
      have empty : (stage.swapped.setAnchor 0 key.val).cellAt 0 = ⟨key.val, []⟩ := by
        simp [cellAt, setAnchor, swapped, shape.second_empty noSecond]
      rw [cells_first hasFirst noSecond] at partitioned
      refine ⟨[], [stage.cellAt 0], ?_, ?_, ?_, ?_, ?_⟩
      · rw [empty]
        refine partitioned_cons.mpr ⟨sound_empty _, ?_, partitioned⟩
        intro next isNext
        rw [List.mem_singleton.mp isNext]
        exact before_of_empty below
      · rw [empty, cells_first hasFirst noSecond]
        rfl
      · simp [setAnchor]
      · intro next isNext
        rw [List.mem_singleton.mp isNext]
        exact below
      · intro node
        simp [cells, cellAt, setAnchor, setNode, swapped, hasFirst, keyNotNil]
  | lower hasFirst below hasSecond =>
      rw [cells_second hasFirst hasSecond] at partitioned
      have next := (partitioned_cons.mp partitioned).2.1 _ List.mem_cons_self
      have same : (stage.setAnchor 0 key.val).cellAt 0 = ⟨key.val, (stage.cellAt 0).records⟩ := by
        simp [cellAt, setAnchor]
      refine ⟨[], [stage.cellAt 1], ?_, ?_, ?_, ?_, ?_⟩
      · rw [same]
        exact partitioned.lowered below.le
      · rw [same, cells_second hasFirst hasSecond]
        rfl
      · simp [setAnchor]
      · intro other isNext
        rw [List.mem_singleton.mp isNext]
        exact below.trans next.anchor
      · intro node
        simp [cells, cellAt, setAnchor, setNode, hasSecond, keyNotNil]
  | second hasFirst above noSecond =>
      have beyond : stage.anchors 0 < key.val := lt_of_le_of_ne (not_lt.mp above) (separates.2 noSecond)
      have empty : (stage.setAnchor 1 key.val).cellAt 1 = ⟨key.val, []⟩ := by
        simp [cellAt, setAnchor, shape.second_empty noSecond]
      rw [cells_first hasFirst noSecond] at partitioned
      have sound := (partitioned_cons.mp partitioned).1
      refine ⟨[stage.cellAt 0], [], ?_, ?_, ?_, ?_, ?_⟩
      · rw [empty]
        refine partitioned_cons.mpr ⟨sound, ?_, ?_⟩
        · intro next isNext
          rw [List.mem_singleton.mp isNext]
          refine ⟨beyond, fun pair isRecord => ?_⟩
          rw [shape.first_single noSecond isRecord]
          exact beyond
        · exact partitioned_singleton (sound_empty _)
      · rw [empty, cells_first hasFirst noSecond]
        rfl
      · simp [setAnchor]
      · exact fun _ isNext => absurd isNext List.not_mem_nil
      · intro node
        simp [cells, cellAt, setAnchor, setNode, hasFirst, keyNotNil]
  | upper hasFirst above hasSecond beyond =>
      rw [cells_second hasFirst hasSecond] at partitioned
      refine ⟨[stage.cellAt 0], [], partitioned, ?_, beyond.le, ?_, ?_⟩
      · rw [cells_second hasFirst hasSecond]
        rfl
      · exact fun _ isNext => absurd isNext List.not_mem_nil
      · intro node
        simp [cells, cellAt, setNode, hasFirst, hasSecond]
  | between hasFirst above hasSecond within =>
      rw [cells_second hasFirst hasSecond] at partitioned
      refine ⟨[], [stage.cellAt 1], partitioned, ?_, not_lt.mp above, ?_, ?_⟩
      · rw [cells_second hasFirst hasSecond]
        rfl
      · intro next isNext
        rw [List.mem_singleton.mp isNext]
        exact lt_of_le_of_ne (not_lt.mp within) separates.1.symm
      · intro node
        simp [cells, cellAt, setNode, hasFirst, hasSecond]

omit [Digest] in
/-- What the cells are once the record is added to the picked one. -/
theorem Receives.added {picked : LocalStage} {slot : Fin 2} {earlier later : List (Cell Str KV)} (pair : KV)
    (receives : Receives stage picked slot pair.key.val earlier later) :
    let records := addNew ComputeNode.keyOf pair (picked.nodes slot).records
    let cells := earlier ++ ⟨picked.anchors slot, records⟩ :: later
    Partitioned ComputeNode.keyOf cells ∧
      (contentsOf cells).Perm (addNew ComputeNode.keyOf pair (contentsOf stage.cells)) := by
  have partitioned := receives.partitioned
  have contents := receives.contents
  unfold cellAt at partitioned contents
  rw [← contents]
  exact ⟨partitioned.add receives.above receives.below, partitioned.contentsOf_add receives.above receives.below⟩

/-- The stage divides its keys between its nodes. -/
structure Divided (stage : LocalStage) : Prop where
  shape : stage.Shape
  partitioned : Partitioned ComputeNode.keyOf stage.cells

theorem divided_initial (heap : Fin 2 → LinkedNode) : (initial heap).Divided :=
  ⟨shape_initial heap, partitioned_nil⟩

/-- A put that stays local inserts its record. -/
theorem Divided.put (divided : stage.Divided) {key value : Bytes16} {next : LocalStage}
    (separates : stage.Separates key.val) (stays : stage.quickPut key.val value.val = some next) :
    next.Divided ∧
      (contentsOf next.cells).Perm (addNew ComputeNode.keyOf ⟨key, value⟩ (contentsOf stage.cells)) := by
  have shape := shape_quickPut divided.shape stays
  rcases quickPut_eq_some stays with ⟨picked, slot, pick, room, rfl⟩
  rcases divided.shape.receives divided.partitioned separates pick with ⟨earlier, later, receives⟩
  have marked : (picked.nodes slot).Fingerprinted := by
    cases pick with
    | swap _ _ _ => exact divided.shape.marked (1 - 0)
    | first _ | lower _ _ _ | second _ _ _ | upper _ _ _ _ | between _ _ _ _ => exact divided.shape.marked _
  have added := Receives.added ⟨key, value⟩ receives
  have cells := receives.cells ((picked.nodes slot).store 10 key.val value.val).2
  rw [ComputeNode.store_adds marked ⟨key, value⟩ room] at cells
  rw [cells]
  exact ⟨⟨shape, cells ▸ added.1⟩, added.2⟩

/-! ### Reading -/

/-- `find` reads the only record of a key. -/
theorem find_eq_recordOf {node : LinkedNode} (marked : node.Fingerprinted) (distinct : node.DistinctKeys)
    (key : Bytes16) :
    node.find key.val = (recordOf ComputeNode.keyOf key.val node.records).map KV.value := by
  have keys : (node.records.map ComputeNode.keyOf).Nodup := by
    have injective := List.Nodup.map Subtype.val_injective (LinkedNode.distinctKeys_iff_records.mp distinct)
    rw [List.map_map] at injective
    exact injective
  apply Option.ext
  intro value
  rw [LinkedNode.find_eq_some_iff marked distinct, Option.map_eq_some_iff]
  constructor
  · rintro ⟨index, bound, isPair⟩
    refine ⟨⟨key, value⟩, ?_, rfl⟩
    exact (recordOf_eq_some_iff keys).mpr ⟨LinkedNode.mem_records.mpr ⟨index, bound, isPair⟩, rfl⟩
  · rintro ⟨pair, found, isValue⟩
    rcases (recordOf_eq_some_iff keys).mp found with ⟨isRecord, isKey⟩
    rcases LinkedNode.mem_records.mp isRecord with ⟨index, bound, isPair⟩
    refine ⟨index, bound, isPair.trans ?_⟩
    rw [← isValue, ← show pair.key = key from Subtype.ext isKey]

/-- The local branch of `get` reads the map. -/
theorem Divided.get (divided : stage.Divided) (key : Bytes16) :
    stage.get key.val = (recordOf ComputeNode.keyOf key.val (contentsOf stage.cells)).map KV.value := by
  have shape := divided.shape
  have partitioned := divided.partitioned
  have reads := fun slot => find_eq_recordOf (shape.marked slot) (shape.distinct slot) key
  unfold LocalStage.get
  rw [reads, reads]
  by_cases noFirst : stage.anchors 0 = []
  · have noSecond := shape.unset noFirst
    rw [if_neg (fun both => both.1 noSecond), cells, if_pos noFirst, shape.first_empty noFirst]
    rfl
  · by_cases noSecond : stage.anchors 1 = []
    · rw [if_neg (fun both => both.1 noSecond), cells_first noFirst noSecond]
      change _ = (recordOf _ _ ((stage.nodes 0).records ++ [])).map _
      rw [List.append_nil]
    · rw [cells_second noFirst noSecond] at partitioned ⊢
      by_cases below : key.val < stage.anchors 1
      · rw [if_neg (fun both => both.2 below), partitioned.recordOf_first]
        · rfl
        · intro next isNext
          rw [List.mem_singleton.mp isNext]
          exact below
      · rw [if_pos ⟨noSecond, below⟩]
        have found := @Partitioned.recordOf_contents _ _ _ ComputeNode.keyOf key.val (stage.cellAt 1) []
          [stage.cellAt 0] partitioned (not_lt.mp below) (fun _ isNext => absurd isNext List.not_mem_nil)
        exact congrArg (Option.map KV.value) found.symm

end Nodes

end LocalStage

/-! ### The flush -/

namespace ComputeNode

variable [Digest] {source : SegmentSource} {node after : ComputeNode} {thread : ThreadId} {slot : Fin 2}
variable {draws : FlushDraws} {larger smaller : RemotePointer} {pair : KV}

/-- A flush whose writes are done posts the two of them. -/
theorem flushTo_logs (node : ComputeNode) (thread : ThreadId) (slot : Fin 2) (larger smaller : RemotePointer)
    (key value : Str) (largerDone : draws.largerWrite = .done) (smallerDone : draws.smallerWrite = .done) :
    let flushed := (node.flushTo thread slot larger smaller key value draws).2
    flushed.allocations = node.allocations ∧
      flushed.posted = (smaller, sizeofNode .type10) :: (larger, sizeofNode .type12) :: node.posted := by
  unfold flushTo writeTo
  rw [largerDone, smallerDone]
  exact ⟨rfl, rfl⟩

/-- The two chunks of a flush come from the reserve, and share no address. -/
theorem flush_took (node : ComputeNode) (thread : ThreadId) (sound : RemoteHeap.Sound source node.heap)
    (headTaken : ¬ RemoteHeap.Reserve source node.heap node.fakeHead) (slot : Fin 2) (key value : Str)
    (largerDone : draws.largerWrite = .done) (smallerDone : draws.smallerWrite = .done) :
    ∃ larger smaller after, node.flush source thread slot key value draws = (true, after) ∧
      Flushed source thread node slot key value draws larger smaller after ∧
      TookTwo source node.heap after.heap smaller larger (sizeofNode .type10) (sizeofNode .type12) ∧
      after.allocations = (larger, sizeofNode .type12) :: (smaller, sizeofNode .type10) :: node.allocations ∧
      after.posted = (smaller, sizeofNode .type10) :: (larger, sizeofNode .type12) :: node.posted := by
  obtain ⟨smaller, heap1, allocated1, took1⟩ := node.allocate_took thread sound LinkedNodeType.isData10
  obtain ⟨larger, heap2, allocated2, took2⟩ := allocate_took
    { node with heap := heap1, allocations := (smaller, sizeofNode .type10) :: node.allocations }
    thread took1.sound LinkedNodeType.isData12
  obtain ⟨smallerFree, smallerTaken⟩ := took_start (by decide) took1
  obtain ⟨largerFree, largerTaken⟩ := took_start (by decide) took2
  have differ : larger ≠ smaller := by
    intro same
    rw [same] at largerFree
    exact smallerTaken largerFree
  have largerNotHead : larger ≠ node.fakeHead := by
    intro same
    rw [same] at largerFree
    exact headTaken (took1.shrinks _ largerFree)
  have smallerNotHead : smaller ≠ node.fakeHead := by
    intro same
    rw [same] at smallerFree
    exact headTaken smallerFree
  obtain ⟨after, flushed, heap, largerRemote, smallerRemote, otherRemote, slist, remotePut, contexts,
    updateQueue, buffers⟩ := flushTo_spec
      { node with
        heap := heap2
        allocations := (larger, sizeofNode .type12) :: (smaller, sizeofNode .type10) :: node.allocations }
      thread slot key value differ largerDone smallerDone
  have logs := flushTo_logs
    { node with
      heap := heap2
      allocations := (larger, sizeofNode .type12) :: (smaller, sizeofNode .type10) :: node.allocations }
    thread slot larger smaller key value largerDone smallerDone
  rw [flushed] at logs
  refine ⟨larger, smaller, after, ?_, ?_, ?_, logs⟩
  · unfold flush
    simp only [allocated1, allocated2]
    exact flushed
  · constructor
    case sound => exact heap ▸ took2.sound
    case largerTaken => exact heap ▸ largerTaken
    case smallerTaken =>
      rw [heap]
      exact fun reserved => smallerTaken (took2.shrinks _ reserved)
    case headTaken =>
      rw [heap]
      exact fun reserved => headTaken (took1.shrinks _ (took2.shrinks _ reserved))
    case differ => exact differ
    case largerNotHead => exact largerNotHead
    case smallerNotHead => exact smallerNotHead
    case largerPos => exact (took1.sound.pos_of_reserve largerFree).ne'
    case smallerPos => exact (sound.pos_of_reserve smallerFree).ne'
    case largerRemote => exact largerRemote
    case smallerRemote => exact smallerRemote
    case otherRemote => exact otherRemote
    case slist => exact slist
    case remotePut => exact remotePut
    case contexts => exact contexts
    case updateQueue => exact updateQueue
    case buffers => exact buffers
  · rw [heap]
    constructor
    · refine ⟨took2.sound, fun address reserved => took1.shrinks address (took2.shrinks address reserved),
        fun address low high => ?_⟩
      obtain ⟨free, taken⟩ := took1.chunk address low high
      exact ⟨free, fun reserved => taken (took2.shrinks address reserved)⟩
    · exact took2.after_of_shrinks took1.shrinks
    · intro address low high inLarger
      exact (took1.chunk address low high).2 (took2.chunk address inLarger.1 inLarger.2).1

/-- Two local nodes that can be flushed. -/
structure Flushable (stage : LocalStage) : Prop where
  marked : ∀ slot, (stage.nodes slot).Fingerprinted
  bounded : ∀ slot, (stage.nodes slot).next ≤ 10
  tag : ∀ slot, (stage.nodes slot).type = .type10

/-- The type of the node at a place. -/
def flushedType (slot place : Fin 2) : LinkedNodeType := if place = slot then .type12 else .type10

omit [Digest] in
theorem flushedType_isData (slot place : Fin 2) : (flushedType slot place).IsData := by
  unfold flushedType
  split <;> trivial

omit [Digest] in
theorem flushCopy_entries {flushNode target : LinkedNode} (llink rlink : RemotePointer) (bounded : target.next ≤ 10) :
    (flushCopy flushNode target llink rlink).entries = target.entries := by
  have sameNext : (flushCopy flushNode target llink rlink).next = target.next := rfl
  apply LinkedNode.entries_congr sameNext
  · exact fun _ _ => rfl
  · intro index inside
    have small : index < 10 := lt_of_lt_of_le inside bounded
    exact if_pos small

theorem flushLarger_intact {flushNode target : LinkedNode} (llink rlink : RemotePointer)
    (marked : target.Fingerprinted) (bounded : target.next ≤ 10) (pair : KV) :
    (flushLarger flushNode target llink rlink pair.key.val pair.value.val).Fingerprinted ∧
      (flushLarger flushNode target llink rlink pair.key.val pair.value.val).records =
        addNew keyOf pair target.records := by
  have copied : (flushCopy flushNode target llink rlink).entries = target.entries := flushCopy_entries _ _ bounded
  have copyMarked := fingerprinted_of_entries copied marked
  have room : (flushCopy flushNode target llink rlink).next < 12 := lt_of_le_of_lt bounded (by decide)
  have stored := store_adds copyMarked pair room
  rw [records_of_entries copied] at stored
  exact ⟨copyMarked.store 12 pair.key pair.value, stored⟩

/-- What the flush writes at either place. -/
theorem flushedImage_intact {stage : LocalStage} (flushable : Flushable stage) {flushNode : LinkedNode}
    (tag : flushNode.type = .type12) (slot place : Fin 2) (larger smaller : RemotePointer) (pair : KV) :
    let image := flushedImage flushNode stage slot larger smaller pair.key.val pair.value.val place
    image.type = flushedType slot place ∧ image.next ≤ (flushedType slot place).capacity ∧ image.Fingerprinted ∧
      image.records =
        if place = slot then addNew keyOf pair (stage.nodes place).records else (stage.nodes place).records := by
  intro image
  by_cases isSlot : place = slot
  · rw [flushedType, if_pos isSlot, if_pos isSlot, isSlot]
    have isImage : image = largerImage flushNode stage slot smaller pair.key.val pair.value.val := if_pos isSlot
    have isLarger : ∃ llink rlink, image =
        flushLarger flushNode (stage.nodes slot) llink rlink pair.key.val pair.value.val := by
      rw [isImage, largerImage]
      split
      next => exact ⟨_, _, rfl⟩
      next => exact ⟨_, _, rfl⟩
    rcases isLarger with ⟨llink, rlink, isLarger⟩
    rw [isLarger]
    have intact := @flushLarger_intact _ flushNode _ llink rlink (flushable.marked slot) (flushable.bounded slot) pair
    refine ⟨?_, ?_, intact.1, intact.2⟩
    · rw [flushLarger_type]
      exact tag
    · exact flushLarger_next_le (flushable.bounded slot) _ _
  · rw [flushedType, if_neg isSlot, if_neg isSlot]
    have isImage : image = sealed (smallerNode stage slot larger) := if_neg isSlot
    have isOther : place = 1 - slot := by omega
    rw [isImage, smallerNode, ← isOther]
    split
    next => exact ⟨flushable.tag place, flushable.bounded place, flushable.marked place, rfl⟩
    next => exact ⟨flushable.tag place, flushable.bounded place, flushable.marked place, rfl⟩

/-- The head node of a store that puts have not written to. -/
structure HeadReady (source : SegmentSource) (node : ComputeNode) : Prop where
  /-- the chunk of the fake head is taken as a whole -/
  taken : ∀ address, node.fakeHead ≤ address → address < node.fakeHead + sizeofNode .typeHead →
    ¬ RemoteHeap.Reserve source node.heap address
  tag : (node.remote node.fakeHead).type = .notSet ∨ (node.remote node.fakeHead).type = .typeHead

/-- The cell behind a place after the flush. -/
def flushedCell (stage : LocalStage) (slot : Fin 2) (pair : KV) (place : Fin 2) : Cell Str KV :=
  ⟨stage.anchors place,
    if place = slot then addNew keyOf pair (stage.nodes place).records else (stage.nodes place).records⟩

/-- The chunk behind a place after the flush. -/
def flushedChunk (slot : Fin 2) (larger smaller : RemotePointer) (place : Fin 2) : RemotePointer :=
  if place = slot then larger else smaller

omit [Digest] in
/-- Both chunks of a flush, place by place. -/
theorem TookTwo.places {before after : RemoteHeap} (took : TookTwo source before after smaller larger
      (sizeofNode .type10) (sizeofNode .type12)) (slot place : Fin 2) {address : Nat}
    (low : flushedChunk slot larger smaller place ≤ address)
    (high : address < flushedChunk slot larger smaller place + sizeofNode (flushedType slot place)) :
    RemoteHeap.Reserve source before address ∧ ¬ RemoteHeap.Reserve source after address := by
  unfold flushedChunk at low high
  unfold flushedType at high
  by_cases isSlot : place = slot
  · rw [if_pos isSlot] at low high
    rw [if_pos isSlot] at high
    exact took.right.chunk address low high
  · rw [if_neg isSlot] at low high
    rw [if_neg isSlot] at high
    exact took.left.chunk address low high

omit [Digest] in
theorem TookTwo.places_apart {before after : RemoteHeap} (took : TookTwo source before after smaller larger
      (sizeofNode .type10) (sizeofNode .type12)) (slot : Fin 2) {left right : Fin 2} (differ : left ≠ right)
    {address : Nat} (leftLow : flushedChunk slot larger smaller left ≤ address)
    (leftHigh : address < flushedChunk slot larger smaller left + sizeofNode (flushedType slot left))
    (rightLow : flushedChunk slot larger smaller right ≤ address) :
    ¬ address < flushedChunk slot larger smaller right + sizeofNode (flushedType slot right) := by
  intro rightHigh
  unfold flushedChunk at leftLow leftHigh rightLow rightHigh
  unfold flushedType at leftHigh rightHigh
  by_cases isSlot : left = slot
  · have isOther : right ≠ slot := fun same => differ (isSlot.trans same.symm)
    rw [if_pos isSlot] at leftLow leftHigh
    rw [if_pos isSlot] at leftHigh
    rw [if_neg isOther] at rightLow rightHigh
    rw [if_neg isOther] at rightHigh
    exact took.apart address rightLow rightHigh ⟨leftLow, leftHigh⟩
  · have isOther : right = slot := by omega
    rw [if_neg isSlot] at leftLow leftHigh
    rw [if_neg isSlot] at leftHigh
    rw [if_pos isOther] at rightLow rightHigh
    rw [if_pos isOther] at rightHigh
    exact took.apart address leftLow leftHigh ⟨rightLow, rightHigh⟩

/-- The search layer and the images after a flush, place by place. -/
structure FlushedStore (before after : ComputeNode) (slot : Fin 2) (pair : KV) (larger smaller : RemotePointer) :
    Prop where
  linked : ∃ levels, after.slist.Ordered levels ∧ levels 0 = [1, 2]
  nodes : SkipList.TwoNodes after.slist before.fakeHead (before.stage.anchors 0) (before.stage.anchors 1)
    (flushedChunk slot larger smaller 0) (flushedChunk slot larger smaller 1) (flushedType slot 0)
    (flushedType slot 1)
  images : ∀ place, after.remote (flushedChunk slot larger smaller place) =
    LinkedNode.overlay (sizeofNode (flushedType slot place))
      (flushedImage before.flushNode before.stage slot larger smaller pair.key.val pair.value.val place)
      (before.remote (flushedChunk slot larger smaller place))
  headImage : after.remote before.fakeHead = before.remote before.fakeHead

/-- The nodes of a flush, place by place. -/
theorem Flushed.twoNodes
    (flushed : Flushed source thread node slot pair.key.val pair.value.val draws larger smaller after)
    (slist : node.slist = .empty node.fakeHead) (ordered : node.stage.anchors 0 ≤ node.stage.anchors 1) :
    ∃ levels, after.slist.Ordered levels ∧
      levels 0 = (if node.stage.anchors 0 = node.stage.anchors 1 then [2, 1] else [1, 2]) ∧
      SkipList.TwoNodes after.slist node.fakeHead (node.stage.anchors 0) (node.stage.anchors 1)
        (flushedChunk slot larger smaller 0) (flushedChunk slot larger smaller 1) (flushedType slot 0)
        (flushedType slot 1) := by
  have isList : after.slist = ((SkipList.empty node.fakeHead).insert (node.stage.anchors 0)
      (flushedChunk slot larger smaller 0) (flushedType slot 0) draws.firstLevel.val).insert
        (node.stage.anchors 1) (flushedChunk slot larger smaller 1) (flushedType slot 1) draws.secondLevel.val := by
    rw [flushed.slist, slist]
    rcases Fin.exists_fin_two.mp ⟨slot, rfl⟩ with isFirst | isSecond
    · rw [isFirst]
      rfl
    · rw [isSecond]
      rfl
  rw [isList]
  exact SkipList.insert_two_spec node.fakeHead ordered (flushedChunk slot larger smaller 0)
    (flushedChunk slot larger smaller 1) (flushedType slot 0) (flushedType slot 1) draws.firstLevel.property.1
    draws.secondLevel.property.1

/-- The images of a flush, place by place. -/
theorem Flushed.images
    (flushed : Flushed source thread node slot pair.key.val pair.value.val draws larger smaller after)
    (place : Fin 2) : after.remote (flushedChunk slot larger smaller place) =
      LinkedNode.overlay (sizeofNode (flushedType slot place))
        (flushedImage node.flushNode node.stage slot larger smaller pair.key.val pair.value.val place)
        (node.remote (flushedChunk slot larger smaller place)) := by
  unfold flushedChunk flushedType flushedImage
  split
  next => exact flushed.largerRemote
  next => exact flushed.smallerRemote

omit [Digest] in
/-- A place names the node that was inserted for it. -/
theorem twoNodes_place {slist : SkipList} {fakeHead : RemotePointer} {first second : Str}
    (nodes : SkipList.TwoNodes slist fakeHead first second (flushedChunk slot larger smaller 0)
      (flushedChunk slot larger smaller 1) (flushedType slot 0) (flushedType slot 1)) (place : Fin 2) :
    (slist.nodes (place.val + 1)).dataNode = flushedChunk slot larger smaller place ∧
      (slist.nodes (place.val + 1)).type = flushedType slot place := by
  match place with
  | 0 => exact ⟨nodes.dataNode.1, nodes.type.1⟩
  | 1 => exact ⟨nodes.dataNode.2, nodes.type.2⟩

theorem Flushed.store
    (flushed : Flushed source thread node slot pair.key.val pair.value.val draws larger smaller after)
    (slist : node.slist = .empty node.fakeHead) (below : node.stage.anchors 0 < node.stage.anchors 1) :
    FlushedStore node after slot pair larger smaller := by
  obtain ⟨levels, ordered, isChain, nodes⟩ := flushed.twoNodes slist below.le
  rw [if_neg below.ne] at isChain
  exact ⟨⟨levels, ordered, isChain⟩, nodes, flushed.images,
    flushed.otherRemote _ flushed.largerNotHead.symm flushed.smallerNotHead.symm⟩

namespace FlushedStore

variable (store : FlushedStore node after slot pair larger smaller)

include store

theorem chain_eq : after.chain = [1, 2] := by
  obtain ⟨levels, ordered, isChain⟩ := store.linked
  rw [chain_of_ordered ordered, isChain]

theorem place_node (place : Fin 2) :
    (after.slist.nodes (place.val + 1)).dataNode = flushedChunk slot larger smaller place ∧
      (after.slist.nodes (place.val + 1)).type = flushedType slot place ∧
      after.slist.anchorOf (place.val + 1) = node.stage.anchors place := by
  obtain ⟨dataNode, type⟩ := twoNodes_place store.nodes place
  refine ⟨dataNode, type, ?_⟩
  match place with
  | 0 => exact store.nodes.anchor.1
  | 1 => exact store.nodes.anchor.2

omit [Digest] store in
theorem place_of_mem {id : NodeId} (isMember : id ∈ [1, 2]) : ∃ place : Fin 2, id = place.val + 1 := by
  rcases List.mem_cons.mp isMember with isFirst | isSecond
  · exact ⟨0, isFirst⟩
  · exact ⟨1, List.mem_singleton.mp isSecond⟩

theorem region_cases {id : NodeId} (isMember : id ∈ SkipList.head :: after.chain) {address : Nat}
    (inRegion : after.InRegion id address) :
    (id = SkipList.head ∧ node.fakeHead ≤ address ∧ address < node.fakeHead + sizeofNode .typeHead) ∨
      ∃ place : Fin 2, id = place.val + 1 ∧ flushedChunk slot larger smaller place ≤ address ∧
        address < flushedChunk slot larger smaller place + sizeofNode (flushedType slot place) := by
  rw [store.chain_eq] at isMember
  unfold InRegion at inRegion
  rcases List.mem_cons.mp isMember with isHead | inChain
  · rw [isHead, store.nodes.headNode, store.nodes.headType] at inRegion
    exact Or.inl ⟨isHead, inRegion.1, inRegion.2⟩
  · rcases place_of_mem inChain with ⟨place, isPlace⟩
    obtain ⟨dataNode, type, _⟩ := store.place_node place
    rw [isPlace, dataNode, type] at inRegion
    exact Or.inr ⟨place, isPlace, inRegion.1, inRegion.2⟩

/-- The node at a place is whole, and holds what the flush wrote. -/
theorem intact (flushable : Flushable node.stage) (tag : node.flushNode.type = .type12) (place : Fin 2) :
    after.Intact (place.val + 1) ∧ after.cellOf (place.val + 1) = flushedCell node.stage slot pair place := by
  obtain ⟨dataNode, type, anchor⟩ := store.place_node place
  obtain ⟨imageTag, fits, marked, records⟩ :=
    flushedImage_intact flushable tag slot place larger smaller pair
  have written : after.imageOf (place.val + 1) = LinkedNode.overlay (sizeofNode (flushedType slot place))
      (flushedImage node.flushNode node.stage slot larger smaller pair.key.val pair.value.val place)
      (node.remote (flushedChunk slot larger smaller place)) := by
    unfold imageOf
    rw [dataNode]
    exact store.images place
  obtain ⟨intact, sameRecords⟩ :=
    intact_of_written (flushedType_isData slot place) type written imageTag fits marked
  refine ⟨intact, ?_⟩
  unfold cellOf flushedCell
  rw [anchor, sameRecords, records]

theorem cells_eq (flushable : Flushable node.stage) (tag : node.flushNode.type = .type12) :
    after.cells = [flushedCell node.stage slot pair 0, flushedCell node.stage slot pair 1] := by
  rw [cells, store.chain_eq]
  have first := (store.intact flushable tag 0).2
  have second := (store.intact flushable tag 1).2
  exact congrArg₂ List.cons first (congrArg₂ List.cons second rfl)

theorem wellFormed (flushable : Flushable node.stage) (tag : node.flushNode.type = .type12)
    (headReady : HeadReady source node)
    (took : TookTwo source node.heap after.heap smaller larger (sizeofNode .type10) (sizeofNode .type12))
    (partitioned : Partitioned keyOf [flushedCell node.stage slot pair 0, flushedCell node.stage slot pair 1])
    (below : node.stage.anchors 0 < node.stage.anchors 1) : WellFormed source after := by
  have nodes := store.nodes
  constructor
  case linked =>
    obtain ⟨levels, ordered, _⟩ := store.linked
    exact ⟨levels, ordered⟩
  case partitioned =>
    rw [store.cells_eq flushable tag]
    exact partitioned
  case intact =>
    rw [store.chain_eq]
    intro id isMember
    rcases place_of_mem isMember with ⟨place, isPlace⟩
    rw [isPlace]
    exact (store.intact flushable tag place).1
  case backward =>
    rw [store.chain_eq]
    intro id isMember
    have back := nodes.backward
    rw [if_neg below.ne, if_neg below.ne] at back
    rcases List.mem_cons.mp isMember with isFirst | isSecond
    · rw [isFirst]
      exact ⟨_, back.1, Or.inl rfl⟩
    · rw [List.mem_singleton.mp isSecond]
      refine ⟨1, back.2, Or.inr ⟨List.mem_cons_self, ?_⟩⟩
      rw [SkipList.anchorOf, SkipList.anchorOf, nodes.anchor.1, nodes.anchor.2]
      exact below
  case headType => exact nodes.headType
  case headTag =>
    unfold imageOf
    rw [nodes.headNode, store.headImage]
    exact headReady.tag
  case apart =>
    intro left leftMember right rightMember differ address inLeft inRight
    rcases store.region_cases leftMember inLeft with
      ⟨leftHead, leftLow, leftHigh⟩ | ⟨leftPlace, isLeft, leftLow, leftHigh⟩
    · rcases store.region_cases rightMember inRight with ⟨rightHead, _⟩ | ⟨rightPlace, _, rightLow, rightHigh⟩
      · exact differ (leftHead.trans rightHead.symm)
      · exact headReady.taken address leftLow leftHigh (took.places slot rightPlace rightLow rightHigh).1
    · rcases store.region_cases rightMember inRight with
        ⟨_, rightLow, rightHigh⟩ | ⟨rightPlace, isRight, rightLow, rightHigh⟩
      · exact headReady.taken address rightLow rightHigh (took.places slot leftPlace leftLow leftHigh).1
      · have places : leftPlace ≠ rightPlace := by
          intro same
          rw [isLeft, isRight, same] at differ
          exact differ rfl
        exact took.places_apart slot places leftLow leftHigh rightLow rightHigh
  case sound => exact took.left.sound
  case taken =>
    intro id isMember address inRegion reserved
    rcases store.region_cases isMember inRegion with ⟨_, low, high⟩ | ⟨place, _, low, high⟩
    · exact headReady.taken address low high (took.left.shrinks address reserved)
    · exact (took.places slot place low high).2 reserved

end FlushedStore

/-! ### Puts before the flush -/

/-- The states before the flush, with the keys divided between the local nodes. -/
structure Staged (source : SegmentSource) (node : ComputeNode) : Prop where
  staging : Staging source node
  divided : node.stage.Divided
  headReady : HeadReady source node

/-- The cells once a refused record has gone to the picked node. -/
theorem Staged.flushedCells (staged : Staged source node) {key value : Bytes16}
    (separates : node.stage.Separates key.val) (full : node.stage.quickPut key.val value.val = none) :
    let picked := (node.stage.quickPutPickNode key.val).1
    let slot := (node.stage.quickPutPickNode key.val).2
    let cells := [flushedCell picked slot ⟨key, value⟩ 0, flushedCell picked slot ⟨key, value⟩ 1]
    Partitioned keyOf cells ∧
      (contentsOf cells).Perm (addNew keyOf ⟨key, value⟩ (contentsOf node.stage.cells)) := by
  intro picked slot cells
  have shape := staged.divided.shape
  have pick := LocalStage.pick_spec node.stage key.val
  obtain ⟨hasSecond, nodes, second, first, _⟩ := shape.full_pick pick (LocalStage.quickPut_eq_none_iff.mp full)
  rcases shape.receives staged.divided.partitioned separates pick with ⟨earlier, later, receives⟩
  have marked : (picked.nodes slot).Fingerprinted := by
    rw [show picked.nodes = node.stage.nodes from nodes]
    exact shape.marked slot
  have room : (picked.nodes slot).next < 12 := by
    rw [show picked.nodes = node.stage.nodes from nodes]
    exact lt_of_le_of_lt (shape.bounded slot) (by decide)
  -- the cells of the picked stage, with a node that holds the record
  have stored := receives.cells ((picked.nodes slot).store 12 key.val value.val).2
  rw [store_adds marked ⟨key, value⟩ room] at stored
  have hasFirst : picked.anchors 0 ≠ [] := by
    rw [show picked.anchors 0 = min key.val (node.stage.anchors 0) from first]
    rcases min_choice key.val (node.stage.anchors 0) with isKey | isOld
    · rw [isKey]
      exact key.ne_nil
    · rw [isOld]
      exact fun noFirst => hasSecond (shape.unset noFirst)
  have hasOther : picked.anchors 1 ≠ [] := by
    rw [show picked.anchors 1 = node.stage.anchors 1 from second]
    exact hasSecond
  have isCells : (picked.setNode slot ((picked.nodes slot).store 12 key.val value.val).2).cells = cells := by
    have twoCells := @LocalStage.cells_second
      (picked.setNode slot ((picked.nodes slot).store 12 key.val value.val).2) hasFirst hasOther
    rw [twoCells]
    have place : ∀ place, (picked.setNode slot ((picked.nodes slot).store 12 key.val value.val).2).cellAt place =
        flushedCell picked slot ⟨key, value⟩ place := by
      intro place
      unfold LocalStage.cellAt flushedCell LocalStage.setNode
      by_cases isSlot : place = slot
      · rw [if_pos isSlot, isSlot, ← store_adds marked ⟨key, value⟩ room]
        simp only [Function.update_self]
      · rw [if_neg isSlot]
        simp only [Function.update_of_ne isSlot]
    rw [place, place]
  rw [← isCells, stored]
  exact LocalStage.Receives.added ⟨key, value⟩ receives

/-- A put that stays local. -/
theorem Staged.put_stays (staged : Staged source node) {key value : Bytes16} {flush : FlushDraws}
    {draws : PutDraws} {stage : LocalStage} (separates : node.stage.Separates key.val)
    (stays : node.stage.quickPut key.val value.val = some stage) {result : Bool}
    (returned : node.put source thread key.val value.val flush draws = (.returned result, after)) :
    Staged source after ∧ result = true ∧
      (contentsOf after.stage.cells).Perm (addNew keyOf ⟨key, value⟩ (contentsOf node.stage.cells)) := by
  have staging := staged.staging.put_stays stays returned
  have staysLocal := staged.staging.unflushed.staysLocal
  unfold ComputeNode.put at returned
  rw [if_neg (by rw [staysLocal]; decide), quickPut_stays staysLocal stays] at returned
  cases returned
  obtain ⟨divided, added⟩ := staged.divided.put separates stays
  exact ⟨⟨staging, divided, ⟨staged.headReady.taken, staged.headReady.tag⟩⟩, rfl, added⟩

/-- A put that flushes leaves a well-formed store of the records put so far. -/
theorem Staged.put_flushes (staged : Staged source node) {key value : Bytes16} {flush : FlushDraws}
    {draws : PutDraws} (done : AllWritesDone flush draws) (separates : node.stage.Separates key.val)
    (full : node.stage.quickPut key.val value.val = none) {result : Bool}
    (returned : node.put source thread key.val value.val flush draws = (.returned result, after)) :
    WellFormed source after ∧ result = true ∧ after.remotePut = true ∧ after.updateQueue = [] ∧
      after.imageOf SkipList.head = node.imageOf SkipList.head ∧
      after.contents.Perm (addNew keyOf ⟨key, value⟩ (contentsOf node.stage.cells)) := by
  have unflushed := staged.staging.unflushed
  obtain ⟨partitioned, contents⟩ := staged.flushedCells separates full
  obtain ⟨sameNodes, _, _⟩ := staged.staging.picked full
  obtain ⟨picked, isPicked⟩ : ∃ picked, picked = (node.stage.quickPutPickNode key.val).1 := ⟨_, rfl⟩
  obtain ⟨slot, isSlot⟩ : ∃ slot, slot = (node.stage.quickPutPickNode key.val).2 := ⟨_, rfl⟩
  obtain ⟨larger, smaller, flushedNode, isFlush, flushed, took, _⟩ := flush_took
    { node with stage := (node.stage.quickPutPickNode key.val).1 } thread unflushed.sound
    unflushed.headTaken (node.stage.quickPutPickNode key.val).2 key.val value.val done.larger done.smaller
  unfold ComputeNode.put at returned
  rw [if_neg (by rw [unflushed.staysLocal]; decide), quickPut_flushes unflushed full, isFlush] at returned
  cases returned
  have flushable : Flushable (node.stage.quickPutPickNode key.val).1 := by
    constructor
    · rw [sameNodes]
      exact unflushed.shape.marked
    · rw [sameNodes]
      exact unflushed.shape.bounded
    · rw [sameNodes]
      exact unflushed.shape.tag
  have below := ((partitioned_cons.mp partitioned).2.1 _ List.mem_cons_self).anchor
  have store := @Flushed.store _ source { node with stage := (node.stage.quickPutPickNode key.val).1 } after
    thread _ flush larger smaller ⟨key, value⟩ flushed unflushed.slist below
  have cells := store.cells_eq flushable unflushed.tag
  have headReady : HeadReady source { node with stage := (node.stage.quickPutPickNode key.val).1 } :=
    ⟨staged.headReady.taken, staged.headReady.tag⟩
  refine ⟨store.wellFormed flushable unflushed.tag headReady took partitioned below, rfl, flushed.remotePut, ?_, ?_,
    ?_⟩
  · exact flushed.updateQueue.trans staged.staging.queue
  · unfold imageOf
    rw [store.nodes.headNode]
    exact store.headImage
  · unfold ComputeNode.contents
    rw [cells]
    exact contents

/-- An initialized compute node, over memory that is not taken for a node. -/
theorem staged_initialized (source : SegmentSource) (main : ThreadId) (memory : RemotePointer → LinkedNode)
    (buffers : ThreadId → Nat → LinkedNode) (heap : Fin 2 → LinkedNode)
    (untagged : (memory (initialized source main memory buffers heap).fakeHead).type = .notSet) :
    Staged source (initialized source main memory buffers heap) := by
  have divided := LocalStage.divided_initial heap
  have unflushed := initialized_unflushed source main memory buffers heap divided.shape
  refine ⟨⟨unflushed, rfl⟩, divided, ?_, Or.inl untagged⟩
  obtain ⟨chunk, after, allocated, took⟩ := (RemoteHeap.sound_empty source).allocate main
    (sizeofNode .typeHead) (getClass_spec (by decide) (by decide)).1
  intro address low high
  unfold fakeHead at low high
  unfold initialized at low high ⊢
  simp only [allocated] at low high ⊢
  change chunk ≤ address at low
  change address < chunk + sizeofNode .typeHead at high
  have fits : sizeofNode .typeHead ≤ (getClass (sizeofNode .typeHead)).size := by decide
  exact (took.chunk address low (high.trans_le (Nat.add_le_add_left fits chunk))).2

end ComputeNode

end DiStore.Cluster
