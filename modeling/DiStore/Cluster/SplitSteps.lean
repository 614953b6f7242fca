import DiStore.Cluster.PutRun

/-!
Contract: a `get` beside a put that splits the node which the get reads, step by step.

Owns: the steps of the two calls that the other one can see, their interleavings, what the
put stages before its first store, and that each call alone is the call of the model.

Does not own: what a get finds in an interleaving.

## What is one step

`fuzzy_search`, a transfer of one image, and each store of the put to the search layer are
steps of their own. Until `write_back_splitted` posts its batch, the put stores to locks,
to its own context and buffer and to the allocator, and no get reads any of these: that
part of the put is one step.
-/

set_option autoImplicit false

namespace DiStore.Cluster

open DiStore.Concurrency DiStore.DataLayer DiStore.Library DiStore.Memory DiStore.SearchLayer

/-- How far `get` is since its last `retry`. -/
inductive GetProgress where
  | called
  | searched (found : NodeId)
  /-- `node->data_node` was read. -/
  | addressed (found : NodeId) (address : RemotePointer)
  /-- The buffer holds the image at the address. -/
  | fetched (found : NodeId) (address : RemotePointer)
  /-- `node->type` was read. -/
  | typed (address : RemotePointer) (type : LinkedNodeType)
  | returned (result : Option Bytes16)
deriving DecidableEq

/-- What its caller sees of a get that is left alone. -/
def GetProgress.callEnd : GetProgress → CallEnd (Option Bytes16)
  | .returned result => .returned result
  | _ => .spins

/-- What the put did last. -/
inductive SplitStage where
  /-- The halves are in the buffer and have their chunks. -/
  | staged
  | predWritten
  | leftWritten
  | rightWritten
  /-- `data_node->data_node = l`. -/
  | moved
  /-- `data_node->forwards[0] = new_node`. -/
  | published (newNode : NodeId)
  | linked
  /-- `data_node->type = left->type`. -/
  | retyped
  | returned
deriving DecidableEq

/-- The left half is in its chunk. -/
def SplitStage.leftDone : SplitStage → Bool
  | .staged => false
  | .predWritten => false
  | _ => true

/-- Both halves are in their chunks. -/
def SplitStage.rightDone : SplitStage → Bool
  | .staged => false
  | .predWritten => false
  | .leftWritten => false
  | _ => true

/-- A search can name the right half. -/
def SplitStage.isPublished : SplitStage → Bool
  | .published _ => true
  | .linked => true
  | .retyped => true
  | .returned => true
  | _ => false

/-- The anchor of the right half, and the chunks of both halves. -/
structure SplitHalves where
  anchor : Str
  l : RemotePointer
  r : RemotePointer
deriving DecidableEq

inductive SplitProgress where
  | called
  | running (stage : SplitStage) (halves : SplitHalves)
deriving DecidableEq

/-- The arguments of the two calls, the node that the put's search names, and the level
drawn for the new search node. -/
structure SplitCalls where
  reader : ThreadId
  key : Bytes16
  writer : ThreadId
  newKey : Bytes16
  newValue : Bytes16
  target : NodeId
  level : Level

structure SplitRace where
  node : ComputeNode
  get : GetProgress
  put : SplitProgress

/-- Whose step is next. -/
inductive RaceTurn where
  | get
  | put
deriving DecidableEq

namespace SplitRace

variable [Digest] (source : SegmentSource) (calls : SplitCalls)

def start (node : ComputeNode) : SplitRace := ⟨node, .called, .called⟩

/-- Both halves get their type and their checksum. -/
def sealHalves (thread : ThreadId) (node : ComputeNode) : ComputeNode :=
  let node := node.setSlot thread 1 (ComputeNode.sealedAs .type10 (node.buffers thread 1))
  node.setSlot thread 2 (ComputeNode.sealedAs .type10 (node.buffers thread 2))

/-- The start of `write_back_splitted`: the chunks `l` and `r`, and the links of the images. -/
def linkHalves (thread : ThreadId) (node : ComputeNode) : RemotePointer × RemotePointer × ComputeNode :=
  let (l, node) := node.allocate source thread (sizeofNode .type10)
  let (r, node) := node.allocate source thread (sizeofNode .type10)
  let pred := node.buffers thread 0
  let left := node.buffers thread 1
  let right := node.buffers thread 2
  let node := node.setSlot thread 0 { pred with rlink := l }
  let node := node.setSlot thread 2 { right with rlink := left.rlink }
  (l, r, node.setSlot thread 1 { left with rlink := r })

/-- The put up to the batch of `write_back_splitted`. It goes on here only if it wins both
locks and its node of type 16 is full; nobody has handed it a request. -/
def stageSplit (node : ComputeNode) : Option (SplitHalves × ComputeNode) :=
  match (node.drainPending calls.writer).2.tryWinForInsert calls.writer calls.target with
  | (false, _) => none
  | (true, won) =>
      let node := won.fetchTwo calls.writer calls.target
      if ((node.buffers calls.writer 1).store 16 calls.newKey.val calls.newValue.val).1 then none
      else
        let (anchor, _, node) :=
          node.outOfPlaceSplitNode calls.writer calls.target calls.newKey.val calls.newValue.val 9 false
        let (l, r, node) := linkHalves source calls.writer (sealHalves calls.writer node)
        some (⟨anchor, l, r⟩, node)

/-- The rest of the put, store by store; every write is done. -/
def publishNext (halves : SplitHalves) (node : ComputeNode) : SplitStage → Option (SplitStage × ComputeNode)
  | .staged =>
      some (.predWritten, node.write calls.writer (node.predData calls.target)
        (sizeofNode (node.buffers calls.writer 0).type) 0 .done)
  | .predWritten => some (.leftWritten, node.write calls.writer halves.l (sizeofNode .type10) 1 .done)
  | .leftWritten => some (.rightWritten, node.write calls.writer halves.r (sizeofNode .type10) 2 .done)
  | .rightWritten => some (.moved, node.setDataNode calls.target halves.l)
  | .moved =>
      let (newNode, slist) := node.slist.publishBehind calls.target halves.anchor .type10 halves.r
      some (.published newNode, node.setSlist slist)
  | .published newNode =>
      let node := node.setSlist (node.slist.setBackward newNode (some calls.target))
      some (.linked,
        if calls.level.val = 1 then node
        else { node with updateQueue := node.updateQueue ++ [⟨calls.level.val, newNode⟩] })
  | .linked => some (.retyped, node.setType calls.target .type10)
  | .retyped => some (.returned, node.release calls.writer calls.target)
  | .returned => none

/-- One step of the put; `none` if it has returned. -/
def stepPut (race : SplitRace) : Option SplitRace :=
  match race.put with
  | .called =>
      (stageSplit source calls race.node).map fun staged =>
        { race with node := staged.2, put := .running .staged staged.1 }
  | .running stage halves =>
      (publishNext calls halves race.node stage).map fun next =>
        { race with node := next.2, put := .running next.1 halves }

/-- One step of the get; `none` if it has returned, or if its search names no node. -/
def stepGet (race : SplitRace) : Option SplitRace :=
  match race.get with
  | .called =>
      let node := (race.node.drainPending calls.reader).2
      (node.slist.fuzzySearch calls.key.val).map fun found => { race with node := node, get := .searched found }
  | .searched found => some { race with get := .addressed found (race.node.slist.nodes found).dataNode }
  | .addressed found address =>
      some { race with node := race.node.fetchAs calls.reader address, get := .fetched found address }
  | .fetched found address => some { race with get := .typed address (race.node.slist.nodes found).type }
  | .typed _ type =>
      let buffer := race.node.buffers calls.reader 0
      some { race with
        get := if crcValidate buffer type = buffer.crc then .returned (buffer.find calls.key.val) else .called }
  | .returned _ => none

def step (race : SplitRace) : RaceTurn → Option SplitRace
  | .get => race.stepGet calls
  | .put => race.stepPut source calls

def run (race : SplitRace) : List RaceTurn → Option SplitRace
  | [] => some race
  | turn :: turns => (race.step source calls turn).bind fun next => next.run turns

/-- The get does not accept the left half for a key that has gone to the right one. -/
def SeesKey (race : SplitRace) : RaceTurn → Prop
  | .get => ∀ address type, race.get = .typed address type →
      crcValidate (race.node.buffers calls.reader 0) type = (race.node.buffers calls.reader 0).crc →
        ∀ stage halves, race.put = .running stage halves → address = halves.l →
          calls.key.val < halves.anchor
  | .put => True

/-- Every step of a run sees the key. -/
def AllSeeKey (race : SplitRace) : List RaceTurn → Prop
  | [] => True
  | turn :: turns =>
      race.SeesKey calls turn ∧
        ∀ next, race.step source calls turn = some next → next.AllSeeKey turns

theorem run_append (source : SegmentSource) (calls : SplitCalls) (race : SplitRace) (turns later : List RaceTurn) :
    race.run source calls (turns ++ later) =
      (race.run source calls turns).bind fun next => next.run source calls later := by
  induction turns generalizing race with
  | nil => rfl
  | cons turn turns inductionHypothesis =>
      simp only [List.cons_append, SplitRace.run, Option.bind_assoc, inductionHypothesis]

/-! ### Images that a get may read -/

/-- An image that fits its type, in which the key is found exactly if `shown`. -/
structure Shows (type : LinkedNodeType) (key : Bytes16) (image : LinkedNode) (shown : Prop) : Prop where
  fits : image.next ≤ type.capacity
  found : (image.find key.val).isSome ↔ shown

section Images

variable {type : LinkedNodeType} {key : Bytes16} {image : LinkedNode} {shown : Prop}

/-- A transfer of the whole node. -/
theorem Shows.overlay (shows : Shows type key image shown) (isData : type.IsData) (old : LinkedNode) :
    Shows type key (LinkedNode.overlay (sizeofNode type) image old) shown := by
  have whole := pairsOffset_le_sizeofNode isData
  have fits := shows.fits
  constructor
  · rw [LinkedNode.overlay_next (sizeofNode_ne_zero isData)]
    exact fits
  · rw [LinkedNode.find_overlay (by omega)]
    exact shows.found

theorem Shows.large (shows : Shows type key image shown) : Shows .type16 key image shown :=
  ⟨shows.fits.trans (capacity_le_sixteen type), shows.found⟩

theorem Shows.of_entries {other : LinkedNode} (shows : Shows type key image shown)
    (same : other.entries = image.entries) : Shows type key other shown := by
  constructor
  · rw [ComputeNode.next_of_entries same]
    exact shows.fits
  · rw [LinkedNode.find_of_entries same]
    exact shows.found

end Images

/-- A key of the divided image is found in the half that its order with the anchor names. -/
theorem shows_halves {image left right : LinkedNode} {pair : KV} {anchor : Str} {key : Bytes16}
    (halves : ComputeNode.Halves image pair 9 left right anchor) (bounded : image.next ≤ 16) (held : (image.find key.val).isSome) :
    Shows .type10 key left (key.val < anchor) ∧ Shows .type10 key right (anchor ≤ key.val) := by
  have inImage := (LinkedNode.holds_iff_records).mp (LinkedNode.holds_of_find held)
  obtain ⟨record, isRecord, isKey⟩ := inImage
  have added : record ∈ addNew ComputeNode.keyOf pair image.records := by
    unfold addNew
    split
    next => exact isRecord
    next => exact List.mem_append_left _ isRecord
  have place := List.mem_append.mp (halves.perm.mem_iff.mpr added)
  have sameKey : ComputeNode.keyOf record = key.val := congrArg Subtype.val isKey
  have rightNext := halves.rightNext
  refine ⟨⟨?_, ?_⟩, ⟨?_, ?_⟩⟩
  · rw [halves.leftNext]
    decide
  · rw [LinkedNode.find_isSome_iff halves.leftMarked, LinkedNode.holds_iff_records]
    constructor
    · rintro ⟨other, inLeft, isOther⟩
      have below := halves.low other inLeft
      rwa [ComputeNode.keyOf, isOther] at below
    · intro below
      rcases place with inLeft | inRight
      · exact ⟨record, inLeft, isKey⟩
      · have above := halves.high record inRight
        rw [sameKey] at above
        exact absurd below (not_lt.mpr above)
  · change right.next ≤ 10
    omega
  · rw [LinkedNode.find_isSome_iff halves.rightMarked, LinkedNode.holds_iff_records]
    constructor
    · rintro ⟨other, inRight, isOther⟩
      have above := halves.high other inRight
      rwa [ComputeNode.keyOf, isOther] at above
    · intro above
      rcases place with inLeft | inRight
      · have below := halves.low record inLeft
        rw [sameKey] at below
        exact absurd below (not_lt.mpr above)
      · exact ⟨record, inRight, isKey⟩

/-! ### The staged halves -/

section Staging

variable {source : SegmentSource} {calls : SplitCalls} {node : ComputeNode}

/-- The get and the put meet in a full data node that holds the key; the put is routed there. -/
structure SplitStart (source : SegmentSource) (calls : SplitCalls) (node : ComputeNode) : Prop where
  wellFormed : ComputeNode.WellFormed source node
  idle : ComputeNode.Idle node
  others : calls.reader ≠ calls.writer
  keyRouted : node.slist.fuzzySearch calls.key.val = some calls.target
  putRouted : node.slist.fuzzySearch calls.newKey.val = some calls.target
  isType : (node.slist.nodes calls.target).type = .type16
  full : (node.imageOf calls.target).next = 16
  stored : ((node.imageOf calls.target).find calls.key.val).isSome

/-- Where the anchor of the right half and the two chunks lie. -/
structure Divides (calls : SplitCalls) (before : SkipList) (halves : SplitHalves) : Prop where
  leftNew : halves.l ≠ (before.nodes calls.target).dataNode
  rightNew : halves.r ≠ (before.nodes calls.target).dataNode
  apart : halves.l ≠ halves.r
  between : before.anchorOf calls.target < halves.anchor
  beyond : ∀ other ∈ before.levelChain 0, before.anchorOf calls.target < before.anchorOf other →
    halves.anchor < before.anchorOf other

/-- What the put has prepared. -/
structure Staged (calls : SplitCalls) (before staged : ComputeNode) (halves : SplitHalves) : Prop where
  divides : Divides calls before.slist halves
  moved : ComputeNode.Moved before.slist staged.slist calls.target
    (before.slist.nodes calls.target).dataNode (before.slist.nodes calls.target).type
  remote : staged.remote = before.remote
  otherBuffers : ∀ other ≠ calls.writer, staged.buffers other = before.buffers other
  left : Shows .type10 calls.key (staged.buffers calls.writer 1) (calls.key.val < halves.anchor)
  right : Shows .type10 calls.key (staged.buffers calls.writer 2) (halves.anchor ≤ calls.key.val)
  rightNotNull : halves.r ≠ nullptr

omit [Digest] in
theorem tryWinForInsert_buffers (node : ComputeNode) (thread : ThreadId) (target : NodeId) :
    (node.tryWinForInsert thread target).2.buffers = node.buffers := by
  unfold ComputeNode.tryWinForInsert
  simp only
  split
  next =>
    split
    next => rfl
    next => rfl
  next => rfl

theorem SplitStart.isData (meets : SplitStart source calls node) :
    (node.slist.nodes calls.target).type.IsData := by
  rw [meets.isType]
  trivial

omit [Digest] in
/-- A winner finds the node as it was. -/
theorem WonInsert.sameNode {won : ComputeNode} {thread : ThreadId} {target : NodeId}
    (wonInsert : ComputeNode.WonInsert node won thread target) :
    (won.slist.nodes target).type = (node.slist.nodes target).type ∧
      won.imageOf target = node.imageOf target := by
  constructor
  · rw [wonInsert.moved.type, if_pos rfl]
  · unfold ComputeNode.imageOf
    rw [wonInsert.moved.dataNode, if_pos rfl, wonInsert.remote]

/-- The put wins both locks and finds its node full. -/
theorem SplitStart.wins (meets : SplitStart source calls node) :
    ∃ won, (node.drainPending calls.writer).2.tryWinForInsert calls.writer calls.target = (true, won) ∧
      ComputeNode.WonInsert node won calls.writer calls.target ∧
      (won.fetchedReal calls.writer calls.target).next = 16 := by
  obtain ⟨earlier, later, divided, _, _⟩ := meets.wellFormed.routed meets.putRouted meets.isData
  have isMember := ComputeNode.mem_of_divided divided
  obtain ⟨won, isWon, wonInsert⟩ := meets.idle.wins calls.writer (meets.wellFormed.backwardOf_mem isMember).2
  obtain ⟨sameType, sameImage⟩ := WonInsert.sameNode wonInsert
  refine ⟨won, isWon, wonInsert, ?_⟩
  rw [ComputeNode.fetchedReal_next (by rw [sameType]; exact meets.isData), sameImage, meets.full]

omit [Digest] in
theorem refused_of_full [Digest] {won : ComputeNode} {thread : ThreadId} {target : NodeId} {key value : Str}
    (isFull : (won.fetchedReal thread target).next = 16) :
    (((won.fetchTwo thread target).buffers thread 1).store 16 key value).1 = false := by
  rw [(won.fetchTwo_buffers thread target).2, LinkedNode.store_fst, isFull]
  rfl

/-- What `linkHalves` leaves: the records of both halves, and two new chunks. -/
structure LinkedHalves (source : SegmentSource) (thread : ThreadId) (before linked : ComputeNode)
    (l r : RemotePointer) : Prop where
  slist : linked.slist = before.slist
  remote : linked.remote = before.remote
  otherBuffers : ∀ other ≠ thread, linked.buffers other = before.buffers other
  left : (linked.buffers thread 1).entries = (before.buffers thread 1).entries
  right : (linked.buffers thread 2).entries = (before.buffers thread 2).entries
  leftFree : RemoteHeap.Reserve source before.heap l
  rightFree : RemoteHeap.Reserve source before.heap r
  apart : l ≠ r
  rightNotNull : r ≠ nullptr

omit [Digest] in
theorem linkHalves_linked (thread : ThreadId) (node : ComputeNode) (sound : RemoteHeap.Sound source node.heap) :
    ∃ l r linked, linkHalves source thread node = (l, r, linked) ∧
      LinkedHalves source thread node linked l r := by
  obtain ⟨l, firstHeap, allocatedLeft, soundLeft, _, shrinks, leftFree, leftTaken⟩ :=
    node.allocate_data thread sound LinkedNodeType.isData10
  obtain ⟨r, secondHeap, allocatedRight, _, rightNotNull, _, rightFree, _⟩ :=
    ({ node with
      heap := firstHeap
      allocations := (l, sizeofNode .type10) :: node.allocations } : ComputeNode).allocate_data thread
        soundLeft LinkedNodeType.isData10
  unfold linkHalves
  simp only [allocatedLeft, allocatedRight]
  refine ⟨l, r, _, rfl, rfl, rfl, ?_, ?_, ?_, leftFree, shrinks r rightFree, ?_, rightNotNull⟩
  · intro other differs
    simp [ComputeNode.setSlot, differs]
  · simp only [ComputeNode.setSlot, Function.update_self]
    rfl
  · simp only [ComputeNode.setSlot, Function.update_self]
    rw [Function.update_of_ne (by decide), Function.update_self]
    rfl
  · intro same
    rw [same] at leftTaken
    exact leftTaken rightFree

theorem sealHalves_left (thread : ThreadId) (node : ComputeNode) :
    ((sealHalves thread node).buffers thread 1).entries = (node.buffers thread 1).entries := by
  simp only [sealHalves, ComputeNode.setSlot, Function.update_self]
  rw [Function.update_of_ne (by decide), Function.update_self]
  rfl

theorem sealHalves_right (thread : ThreadId) (node : ComputeNode) :
    ((sealHalves thread node).buffers thread 2).entries = (node.buffers thread 2).entries := by
  simp only [sealHalves, ComputeNode.setSlot, Function.update_self]
  rw [Function.update_of_ne (by decide)]
  rfl

/-- The halves of the full node, in their slots. -/
structure Halved (calls : SplitCalls) (before halved : ComputeNode) (anchor : Str) : Prop where
  slist : halved.slist = before.slist
  heap : halved.heap = before.heap
  remote : halved.remote = before.remote
  otherBuffers : ∀ other ≠ calls.writer, halved.buffers other = before.buffers other
  left : Shows .type10 calls.key (halved.buffers calls.writer 1) (calls.key.val < anchor)
  right : Shows .type10 calls.key (halved.buffers calls.writer 2) (anchor ≤ calls.key.val)
  between : before.slist.anchorOf calls.target < anchor
  beyond : ∀ other ∈ before.chain, before.slist.anchorOf calls.target < before.slist.anchorOf other →
    anchor < before.slist.anchorOf other

/-- `out_of_place_split_node` divides the full node. -/
theorem SplitStart.halves (meets : SplitStart source calls node) {won : ComputeNode}
    (wonInsert : ComputeNode.WonInsert node won calls.writer calls.target)
    (isFull : (won.fetchedReal calls.writer calls.target).next = 16) :
    ∃ anchor replies halved, (won.fetchTwo calls.writer calls.target).outOfPlaceSplitNode calls.writer calls.target
        calls.newKey.val calls.newValue.val 9 false = (anchor, replies, halved) ∧
      Halved calls won halved anchor := by
  obtain ⟨earlier, later, divided, above, below⟩ := meets.wellFormed.routed meets.putRouted meets.isData
  obtain ⟨sameType, sameImage⟩ := WonInsert.sameNode wonInsert
  rw [meets.isType] at sameType
  obtain ⟨wonFormed, _, sameChain⟩ := wonInsert.wellFormed meets.wellFormed divided
  have wonDivided := sameChain.trans divided
  have wonMember := ComputeNode.mem_of_divided wonDivided
  have sameAnchor : ∀ other, won.slist.anchorOf other = node.slist.anchorOf other := wonInsert.moved.anchor
  have isLarge : (won.slist.nodes calls.target).type.IsData := by
    rw [sameType]
    trivial
  have realEntries := @ComputeNode.fetchedReal_entries won calls.writer calls.target isLarge
    (wonFormed.intact _ wonMember).fits
  have realFound : ((won.fetchedReal calls.writer calls.target).find calls.key.val).isSome := by
    rw [LinkedNode.find_of_entries realEntries, sameImage]
    exact meets.stored
  obtain ⟨buffer, isBuffer⟩ : ∃ buffer, buffer = ((bufferNode (won.fetchedReal calls.writer calls.target)).store
    bufferCapacity calls.newKey.val calls.newValue.val).2 := ⟨_, rfl⟩
  obtain ⟨halves, isHalves⟩ : ∃ halves, splitBuffer buffer
    ((won.fetchTwo calls.writer calls.target).buffers calls.writer 1)
    ((won.fetchTwo calls.writer calls.target).buffers calls.writer 2) 9 = halves := ⟨_, rfl⟩
  obtain ⟨halved, between, next⟩ := @ComputeNode.WellFormed.halves_between source won calls.writer calls.target
    earlier later _ wonFormed ⟨calls.newKey, calls.newValue⟩ .type16 wonDivided sameType
    (by rw [sameAnchor]; exact above) (by intro other isLater; rw [sameAnchor]; exact below other isLater)
    9 (by decide) (by decide) isFull.ge ((won.fetchTwo calls.writer calls.target).buffers calls.writer 1)
    ((won.fetchTwo calls.writer calls.target).buffers calls.writer 2)
  rw [← isBuffer, isHalves] at halved between next
  obtain ⟨showsLeft, showsRight⟩ := shows_halves halved isFull.le realFound
  have work : (won.fetchTwo calls.writer calls.target).splitWork calls.writer calls.target calls.newKey.val
      calls.newValue.val false = ⟨won.fetchedPred calls.writer calls.target, buffer, [], []⟩ := by
    have buffers := won.fetchTwo_buffers calls.writer calls.target
    unfold ComputeNode.splitWork
    rw [buffers.1, buffers.2, isBuffer]
    change helpOthers _ _ _ _ (won.contexts calls.writer).requests = _
    rw [wonInsert.requests]
    rfl
  unfold ComputeNode.outOfPlaceSplitNode
  rw [work]
  simp only [isHalves]
  refine ⟨_, _, _, rfl, ?_, ?_, ?_, ?_, ?_, ?_, between, ?_⟩
  · rw [ComputeNode.fetchTwo_eq]
    rfl
  · rw [ComputeNode.fetchTwo_eq]
    rfl
  · rw [ComputeNode.fetchTwo_eq]
    rfl
  · intro other differs
    simp [ComputeNode.staged, ComputeNode.setSlot, ComputeNode.setRequests, ComputeNode.fetchTwo_eq, differs]
  · simp [ComputeNode.staged, ComputeNode.setSlot, ComputeNode.setRequests]
    exact showsLeft
  · simp [ComputeNode.staged, ComputeNode.setSlot, ComputeNode.setRequests]
    exact showsRight
  · intro other inChain beyond
    rw [wonDivided, List.mem_append, List.mem_cons] at inChain
    rcases inChain with isEarlier | isTarget | isLater
    · have behind := wonFormed.anchor_le wonDivided (List.mem_append_left _ isEarlier)
      exact absurd beyond (not_lt.mpr behind)
    · rw [isTarget] at beyond
      exact absurd beyond (lt_irrefl _)
    · exact next other isLater

theorem stageSplit_staged (meets : SplitStart source calls node) :
    ∃ halves staged, stageSplit source calls node = some (halves, staged) ∧
      Staged calls node staged halves := by
  obtain ⟨won, isWon, wonInsert, isFull⟩ := meets.wins
  obtain ⟨anchor, replies, halved, isHalved, facts⟩ := meets.halves wonInsert isFull
  have sameHeap : (sealHalves calls.writer halved).heap = node.heap := facts.heap.trans wonInsert.heap
  have sameSlist : (sealHalves calls.writer halved).slist = won.slist := facts.slist
  have sameRemote : (sealHalves calls.writer halved).remote = node.remote :=
    facts.remote.trans wonInsert.remote
  obtain ⟨l, r, linked, isLinked, links⟩ := linkHalves_linked calls.writer (sealHalves calls.writer halved)
    (by rw [sameHeap]; exact meets.wellFormed.sound)
  have sameAnchor : ∀ other, won.slist.anchorOf other = node.slist.anchorOf other := wonInsert.moved.anchor
  obtain ⟨earlier, later, divided, _, _⟩ := meets.wellFormed.routed meets.putRouted meets.isData
  have isMember := ComputeNode.mem_of_divided divided
  have oldTaken := meets.wellFormed.dataNode_taken (List.mem_cons_of_mem _ isMember)
  have leftFree := links.leftFree
  have rightFree := links.rightFree
  rw [sameHeap] at leftFree rightFree
  have wonChain := (wonInsert.wellFormed meets.wellFormed divided).2.2
  refine ⟨⟨anchor, l, r⟩, linked, ?_, ⟨?_, ?_, links.apart, ?_, ?_⟩, ?_, ?_, ?_, ?_, ?_, links.rightNotNull⟩
  · unfold stageSplit
    rw [isWon]
    simp only [refused_of_full isFull, Bool.false_eq_true, if_false]
    rw [isHalved]
    simp only [isLinked]
  · intro same
    change l = _ at same
    rw [← same] at oldTaken
    exact oldTaken leftFree
  · intro same
    change r = _ at same
    rw [← same] at oldTaken
    exact oldTaken rightFree
  · rw [← sameAnchor]
    exact facts.between
  · intro other inChain beyond
    change other ∈ node.chain at inChain
    rw [← wonChain] at inChain
    rw [← sameAnchor, ← sameAnchor] at beyond
    rw [← sameAnchor]
    exact facts.beyond other inChain beyond
  · rw [links.slist, sameSlist]
    exact wonInsert.moved
  · rw [links.remote, sameRemote]
  · intro other differs
    have wonBuffers : won.buffers = node.buffers := by
      have sameBuffers := tryWinForInsert_buffers (node.drainPending calls.writer).2 calls.writer calls.target
      rw [isWon] at sameBuffers
      exact sameBuffers
    rw [links.otherBuffers other differs, ← wonBuffers, ← facts.otherBuffers other differs]
    simp [sealHalves, ComputeNode.setSlot, differs]
  · exact (facts.left.of_entries (sealHalves_left calls.writer halved)).of_entries links.left
  · exact (facts.right.of_entries (sealHalves_right calls.writer halved)).of_entries links.right

/-! ### Each call alone -/

/-- Five steps without the put are one round of `get`. -/
theorem get_alone (remotePut : node.remotePut = true) {found : NodeId}
    (isFound : node.slist.fuzzySearch calls.key.val = some found) :
    ∃ get after, (SplitRace.start node).run source calls (List.replicate 5 .get) =
        some ⟨after, get, .called⟩ ∧
      node.get calls.reader calls.key.val = (get.callEnd, after) := by
  obtain ⟨fetched, isFetched⟩ : ∃ fetched, fetched = (node.drainPending calls.reader).2.fetchAs calls.reader
    ((node.drainPending calls.reader).2.slist.nodes found).dataNode := ⟨_, rfl⟩
  have searched : (SplitRace.start node).stepGet calls =
      some ⟨(node.drainPending calls.reader).2, .searched found, .called⟩ := by
    unfold SplitRace.stepGet
    change Option.map _ (node.slist.fuzzySearch calls.key.val) = _
    rw [isFound]
    rfl
  refine ⟨if crcValidate (fetched.buffers calls.reader 0) (fetched.slist.nodes found).type =
      (fetched.buffers calls.reader 0).crc then
    .returned ((fetched.buffers calls.reader 0).find calls.key.val) else .called, fetched, ?_, ?_⟩
  · rw [isFetched]
    change ((SplitRace.start node).stepGet calls).bind _ = _
    rw [searched]
    rfl
  · have drained : (node.drainPending calls.reader).2.slist.fuzzySearch calls.key.val = some found := isFound
    unfold ComputeNode.get
    rw [if_pos remotePut]
    simp only [drained]
    rw [isFetched]
    split
    next => rfl
    next => rfl

/-- The batch of `write_back_splitted`, done. -/
def writeHalves (calls : SplitCalls) (l r : RemotePointer) (node : ComputeNode) : ComputeNode :=
  let node := node.write calls.writer (node.predData calls.target)
    (sizeofNode (node.buffers calls.writer 0).type) 0 .done
  let node := node.write calls.writer l (sizeofNode .type10) 1 .done
  node.write calls.writer r (sizeofNode .type10) 2 .done

/-- All stores of the put from the batch on. -/
def publishAll (calls : SplitCalls) (halves : SplitHalves) (node : ComputeNode) : ComputeNode :=
  let node := (writeHalves calls halves.l halves.r node).setDataNode calls.target halves.l
  let node := node.asyncUpdate calls.target halves.anchor .type10 halves.r calls.level
  (node.setType calls.target .type10).release calls.writer calls.target

/-- The two stores of `async_update`. -/
theorem asyncUpdate_run (source : SegmentSource) (calls : SplitCalls) (halves : SplitHalves) (node : ComputeNode)
    (get : GetProgress) :
    SplitRace.run source calls ⟨node, get, .running .moved halves⟩ (List.replicate 2 .put) =
      some ⟨node.asyncUpdate calls.target halves.anchor .type10 halves.r calls.level, get,
        .running .linked halves⟩ := by
  unfold ComputeNode.asyncUpdate SkipList.linkBehind
  rfl

theorem publishAll_run (source : SegmentSource) (calls : SplitCalls) (halves : SplitHalves) (node : ComputeNode)
    (get : GetProgress) :
    SplitRace.run source calls ⟨node, get, .running .staged halves⟩ (List.replicate 8 .put) =
      some ⟨publishAll calls halves node, get, .running .returned halves⟩ := by
  have turns : List.replicate 8 RaceTurn.put =
      List.replicate 4 .put ++ (List.replicate 2 .put ++ List.replicate 2 .put) := rfl
  have written : SplitRace.run source calls ⟨node, get, .running .staged halves⟩ (List.replicate 4 .put) =
      some ⟨(writeHalves calls halves.l halves.r node).setDataNode calls.target halves.l, get,
        .running .moved halves⟩ := rfl
  rw [turns, run_append, written, Option.bind_some, run_append, asyncUpdate_run, Option.bind_some]
  rfl

omit [Digest] in
theorem publishAll_type (calls : SplitCalls) (halves : SplitHalves) (node : ComputeNode) :
    ((publishAll calls halves node).slist.nodes calls.target).type = .type10 := by
  unfold publishAll
  simp only
  rw [(ComputeNode.release_moved _ _ _).type, if_pos rfl]
  exact ((ComputeNode.moved_setType _ _ _).type _).trans (if_pos rfl)

omit [Digest] in
theorem writeBackSplitted_eq {l r : RemotePointer} {linked : ComputeNode}
    (isLinked : linkHalves source calls.writer node = (l, r, linked)) :
    node.writeBackSplitted source calls.writer calls.target .type10 .type10 .done =
      (r, (writeHalves calls l r linked).setDataNode calls.target l) := by
  unfold linkHalves at isLinked
  unfold ComputeNode.writeBackSplitted
  generalize node.allocate source calls.writer (sizeofNode .type10) = first at isLinked ⊢
  obtain ⟨left, firstNode⟩ := first
  simp only at isLinked ⊢
  generalize firstNode.allocate source calls.writer (sizeofNode .type10) = second at isLinked ⊢
  obtain ⟨right, secondNode⟩ := second
  simp only [Prod.mk.injEq] at isLinked
  obtain ⟨isLeft, isRight, isNode⟩ := isLinked
  subst isLeft
  subst isRight
  have samePred : (linked.buffers calls.writer 0).type = (secondNode.buffers calls.writer 0).type := by
    rw [← isNode]
    simp [ComputeNode.setSlot]
  unfold writeHalves
  rw [samePred, isNode]
  simp only [ComputeNode.postBatchWrite, ComputeNode.writeBatch, List.length_cons, List.length_nil]
  rfl

/-- Nine steps without the get are the whole `put`. -/
theorem put_alone (meets : SplitStart source calls node) (remotePut : node.remotePut = true) (flush : FlushDraws)
    {draws : PutDraws} (batchDone : draws.batch = .done) (level : draws.level = calls.level) :
    ∃ halves after, (SplitRace.start node).run source calls (List.replicate 9 .put) =
        some ⟨after, .called, .running .returned halves⟩ ∧
      node.put source calls.writer calls.newKey.val calls.newValue.val flush draws = (.returned true, after) := by
  obtain ⟨halves, staged, isStaged, facts⟩ := stageSplit_staged meets
  have first : (SplitRace.start node).stepPut source calls =
      some ⟨staged, .called, .running .staged halves⟩ := by
    change Option.map _ (stageSplit source calls node) = _
    rw [isStaged]
    rfl
  refine ⟨halves, publishAll calls halves staged, ?_, ?_⟩
  · change ((SplitRace.start node).stepPut source calls).bind _ = _
    rw [first]
    exact publishAll_run source calls halves staged .called
  · obtain ⟨won, isWon, wonInsert, isFull⟩ := meets.wins
    have notNull := facts.rightNotNull
    have full : LinkedNodeType.type16.capacity ≤ (won.fetchedReal calls.writer calls.target).next := isFull.ge
    have isPut : won.putFor source calls.writer calls.target calls.newKey.val calls.newValue.val draws .type16 =
        won.putWon source calls.writer calls.target calls.newKey.val calls.newValue.val draws .type16 plan16 := rfl
    unfold ComputeNode.put ComputeNode.remotePutCall ComputeNode.putDispatcher
    rw [if_pos remotePut, meets.putRouted]
    simp only
    rw [meets.isType, if_pos LinkedNodeType.isData16, isWon]
    simp only
    rw [isPut, ComputeNode.putWon_full _ _ _ _ full, wonInsert.requests]
    unfold stageSplit at isStaged
    rw [isWon] at isStaged
    simp only [refused_of_full isFull, Bool.false_eq_true, if_false] at isStaged
    obtain ⟨anchor, replies, halved, isHalved, _⟩ := meets.halves wonInsert isFull
    rw [isHalved] at isStaged
    obtain ⟨⟨l, r, linked⟩, isLinked⟩ : ∃ linked,
      linkHalves source calls.writer (sealHalves calls.writer halved) = linked := ⟨_, rfl⟩
    simp only [isLinked, Option.some.injEq, Prod.mk.injEq] at isStaged
    obtain ⟨rfl, rfl⟩ := isStaged
    have path : (won.fetchTwo calls.writer calls.target).followPlan source calls.writer calls.target
        calls.newKey.val calls.newValue.val draws false (plan16 (([] : List ConcurrencyRequest).length + 1)) =
          ⟨true, replies, (((writeHalves calls l r linked).setDataNode calls.target l).asyncUpdate calls.target
            anchor .type10 r calls.level).setType calls.target .type10⟩ := by
      change ComputeNode.splitPath _ _ _ _ _ _ _ 9 .type10 .type10 .type10 .type10 false = _
      unfold ComputeNode.splitPath
      rw [isHalved, batchDone, level]
      simp only
      have written := writeBackSplitted_eq isLinked
      unfold sealHalves at written
      simp only at written
      rw [written]
      exact if_neg notNull
    rw [path]
    rfl

end Staging

end SplitRace

end DiStore.Cluster
