import DiStore.Cluster.ChainedPuts
import DiStore.Cluster.SplitSteps

/-!
Contract: a concurrent split and a `get` of a key that is stored.

Owns: the search layer and the images after each store of the put, what a get knows after
each of its reads, and which interleavings make the get miss a stored key.

Does not own: the other paths of a put, and requests handed over to the winner.
-/

set_option autoImplicit false

namespace DiStore.Cluster

open DiStore.Concurrency DiStore.DataLayer DiStore.Library DiStore.Memory DiStore.SearchLayer

namespace SplitRace

section Racing

variable [Digest] {source : SegmentSource} {calls : SplitCalls} {node : ComputeNode}

/-! ### The search layer while the put publishes -/

/-- Once the right half is linked, a search for the key names the half that shows it. -/
structure Published (calls : SplitCalls) (before : SkipList) (halves : SplitHalves) (slist : SkipList) :
    Prop where
  routed : slist.fuzzySearch calls.key.val =
    some (if calls.key.val < halves.anchor then calls.target else before.count)
  left : (slist.nodes calls.target).dataNode = halves.l
  right : (slist.nodes before.count).dataNode = halves.r

/-- The search nodes after a store of the put. -/
def Layout (calls : SplitCalls) (before : SkipList) (halves : SplitHalves) (slist : SkipList) :
    SplitStage → Prop
  | .moved => ComputeNode.Moved before slist calls.target halves.l (before.nodes calls.target).type
  | .published _ => Published calls before halves slist
  | .linked => Published calls before halves slist
  | .retyped => Published calls before halves slist
  | .returned => Published calls before halves slist
  | _ => ComputeNode.Moved before slist calls.target (before.nodes calls.target).dataNode
      (before.nodes calls.target).type

variable {halves : SplitHalves} {before slist next : SkipList}

omit [Digest] in
theorem Published.congr (published : Published calls before halves slist)
    (search : SkipList.SameSearch next slist)
    (dataNode : ∀ id, (next.nodes id).dataNode = (slist.nodes id).dataNode) :
    Published calls before halves next where
  routed := (search.fuzzySearch _).trans published.routed
  left := (dataNode _).trans published.left
  right := (dataNode _).trans published.right

omit [Digest] in
theorem sameSearch_of_moved {target : NodeId} {remote : RemotePointer} {type : LinkedNodeType}
    (moved : ComputeNode.Moved slist next target remote type) : SkipList.SameSearch next slist where
  count := moved.count
  currentLevel := moved.currentLevel
  forward := moved.forward
  anchor := moved.anchor

omit [Digest] in
theorem sameSearch_setBackward (slist : SkipList) (id : NodeId) (backward : Option NodeId) :
    SkipList.SameSearch (slist.setBackward id backward) slist where
  count := rfl
  currentLevel := rfl
  forward level other := by rw [SkipList.forward_setBackward]
  anchor other := by rw [SkipList.anchorOf, SkipList.nodes_setBackward]

omit [Digest] in
theorem dataNode_setBackward (slist : SkipList) (id : NodeId) (backward : Option NodeId) (other : NodeId) :
    ((slist.setBackward id backward).nodes other).dataNode = (slist.nodes other).dataNode := by
  rw [SkipList.nodes_setBackward]

/-- `data_node->forwards[0] = new_node` publishes the right half. -/
theorem published_publishBehind (meets : SplitStart source calls node)
    (divides : Divides calls node.slist halves)
    (moved : ComputeNode.Moved node.slist slist calls.target halves.l (node.slist.nodes calls.target).type) :
    Published calls node.slist halves (slist.publishBehind calls.target halves.anchor .type10 halves.r).2 := by
  obtain ⟨_, _, _, between, beyond⟩ := divides
  have wellFormed := meets.wellFormed
  have isData : (node.slist.nodes calls.target).type.IsData := by
    rw [meets.isType]
    trivial
  obtain ⟨earlier, later, divided, above, below⟩ := wellFormed.routed meets.keyRouted isData
  obtain ⟨levels, ordered⟩ := wellFormed.linked
  have isChain : levels 0 = (earlier ++ [calls.target]) ++ later := by
    rw [← ComputeNode.chain_of_ordered ordered, divided, List.append_assoc]
    rfl
  have laterChain : ∀ other ∈ later, other ∈ node.chain := by
    intro other isLater
    rw [divided]
    exact List.mem_append_right _ (List.mem_cons_of_mem _ isLater)
  have strict : StrictlySortedBy node.slist.anchorOf (earlier ++ calls.target :: later) := by
    have apart := wellFormed.partitioned.before
    rw [ComputeNode.cells, divided, List.pairwise_map] at apart
    exact apart.imp fun order => order.anchor
  have sorted := strict
  rw [StrictlySortedBy, List.pairwise_append, List.pairwise_cons] at sorted
  obtain ⟨earlierSorted, ⟨targetBelow, laterSorted⟩, earlierBelow⟩ := sorted
  have sameAnchor : ∀ other, slist.anchorOf other = node.slist.anchorOf other := moved.anchor
  have earlierLow : ∀ other ∈ earlier, node.slist.anchorOf other < node.slist.anchorOf calls.target :=
    fun other isEarlier => earlierBelow other isEarlier calls.target List.mem_cons_self
  have laterHigh : ∀ other ∈ later, halves.anchor < node.slist.anchorOf other := fun other isLater =>
    beyond other (laterChain other isLater) (targetBelow other isLater)
  obtain ⟨_, linked, created⟩ := (moved.ordered ordered).linkBehind halves.anchor halves.r .type10 isChain
    List.getLastD_concat
    (fun other isBefore => by
      rw [sameAnchor]
      rcases List.mem_append.mp isBefore with isEarlier | isTarget
      · exact ((earlierLow other isEarlier).trans between).le
      · rw [List.mem_singleton.mp isTarget]
        exact between.le)
    (fun other isLater => by
      rw [sameAnchor]
      exact (laterHigh other isLater).le)
  obtain ⟨result, isResult⟩ : ∃ result,
    result = (slist.linkBehind calls.target halves.anchor .type10 halves.r).2 := ⟨_, rfl⟩
  rw [← isResult] at linked created
  have bottom : SkipList.insertedLevels levels (fun _ => earlier ++ [calls.target]) (fun _ => later) [0]
      slist.count 0 = earlier ++ calls.target :: slist.count :: later := by
    rw [SkipList.insertedLevels, if_pos (List.mem_singleton.mpr rfl), List.append_assoc]
    rfl
  have newAnchor : result.anchorOf slist.count = halves.anchor := created.anchor
  have oldAnchor : ∀ other ∈ earlier ++ calls.target :: later, result.anchorOf other = node.slist.anchorOf other := by
    intro other isMember
    have known := wellFormed.known (List.mem_cons_of_mem _ (divided.symm ▸ isMember))
    rw [← moved.count] at known
    exact (created.old other known.ne).1.trans (sameAnchor other)
  have newStrict : StrictlySortedBy result.anchorOf (earlier ++ calls.target :: slist.count :: later) := by
    apply StrictlySortedBy.insert
    · refine strict.imp_of_mem fun leftIn rightIn lower => ?_
      rw [oldAnchor _ leftIn, oldAnchor _ rightIn]
      exact lower
    · rw [oldAnchor _ (List.mem_append_right _ List.mem_cons_self), newAnchor]
      exact between
    · intro other isLater
      rw [newAnchor, oldAnchor _ (List.mem_append_right _ (List.mem_cons_of_mem _ isLater))]
      exact laterHigh other isLater
  have notHead : SkipList.head ∉ earlier ++ calls.target :: slist.count :: later := by
    have nodup := linked.nodup 0
    rw [bottom] at nodup
    exact (List.nodup_cons.mp nodup).1
  have route : Library.route result.anchorOf SkipList.head
      (earlier ++ calls.target :: slist.count :: later) calls.key.val =
        if calls.key.val < result.anchorOf slist.count then calls.target else slist.count := by
    apply route_neighbours newStrict notHead
    · rw [oldAnchor _ (List.mem_append_right _ List.mem_cons_self)]
      exact above
    · intro other isLater
      rw [oldAnchor _ (List.mem_append_right _ (List.mem_cons_of_mem _ isLater))]
      exact below other isLater
  have isMember : calls.target ∈ node.chain := ComputeNode.mem_of_divided divided
  have known := wellFormed.known (List.mem_cons_of_mem _ isMember)
  rw [← moved.count] at known
  have search := linked.fuzzySearch_eq calls.key.val
  rw [bottom, route, newAnchor] at search
  have published : Published calls node.slist halves result := by
    constructor
    · rw [search, moved.count]
    · rw [(created.old calls.target known.ne).2.1, moved.dataNode, if_pos rfl]
    · rw [← moved.count]
      exact created.dataNode
  apply published.congr
  · rw [isResult]
    exact (sameSearch_setBackward _ _ _).symm
  · intro id
    rw [isResult]
    exact (dataNode_setBackward _ _ _ id).symm

/-! ### The put, store by store -/

/-- The shared state after a store of the put. -/
structure Running (calls : SplitCalls) (before : SkipList) (stage : SplitStage) (halves : SplitHalves)
    (node : ComputeNode) : Prop where
  layout : Layout calls before halves node.slist stage
  left : Shows .type10 calls.key (node.buffers calls.writer 1) (calls.key.val < halves.anchor)
  right : Shows .type10 calls.key (node.buffers calls.writer 2) (halves.anchor ≤ calls.key.val)
  old : Shows .type16 calls.key (node.remote (before.nodes calls.target).dataNode) True
  leftImage : stage.leftDone = true →
    Shows .type16 calls.key (node.remote halves.l) (calls.key.val < halves.anchor)
  rightImage : stage.rightDone = true →
    Shows .type16 calls.key (node.remote halves.r) (halves.anchor ≤ calls.key.val)

/-- The store as the get has found it. -/
structure Untouched (before node : ComputeNode) : Prop where
  slist : node.slist = before.slist
  heap : node.heap = before.heap
  remote : node.remote = before.remote
  updateQueue : node.updateQueue = before.updateQueue

/-- What holds of the shared state, whatever the get has done. -/
def PutSide (calls : SplitCalls) (before node : ComputeNode) : SplitProgress → Prop
  | .called => Untouched before node
  | .running stage halves => Divides calls before.slist halves ∧ Running calls before.slist stage halves node

variable {other : ComputeNode}

theorem Untouched.meets (untouched : Untouched node other) (meets : SplitStart source calls node) :
    SplitStart source calls other := by
  obtain ⟨slist, heap, remote, buffers, contexts, updateQueue, remotePut, stage, flushNode, allocations,
    posted⟩ := node
  obtain ⟨sameSlist, sameHeap, sameRemote, sameQueue⟩ := untouched
  obtain ⟨otherSlist, otherHeap, otherRemote, otherBuffers, otherContexts, otherQueue, otherPut, otherStage,
    otherFlush, otherAllocations, otherPosted⟩ := other
  cases sameSlist
  cases sameHeap
  cases sameRemote
  cases sameQueue
  have wellFormed := meets.wellFormed
  have idle := meets.idle
  exact ⟨⟨wellFormed.linked, wellFormed.partitioned,
      fun id isMember => ⟨(wellFormed.intact id isMember).isData, (wellFormed.intact id isMember).tag,
        (wellFormed.intact id isMember).fits, (wellFormed.intact id isMember).marked⟩,
      wellFormed.backward, wellFormed.headType, wellFormed.headTag, wellFormed.apart, wellFormed.sound,
      wellFormed.taken⟩, ⟨idle.closed, idle.free, idle.queued⟩, meets.others, meets.keyRouted,
    meets.putRouted, meets.isType, meets.full, meets.stored⟩

/-- The first step of the put. -/
theorem Untouched.stages (untouched : Untouched node other) (meets : SplitStart source calls node)
    {staged : ComputeNode} (isStaged : stageSplit source calls other = some (halves, staged)) :
    PutSide calls node staged (.running .staged halves) ∧
      staged.buffers calls.reader = other.buffers calls.reader := by
  obtain ⟨found, result, isResult, facts⟩ := stageSplit_staged (untouched.meets meets)
  rw [isStaged] at isResult
  cases isResult
  have divides := facts.divides
  have moved := facts.moved
  rw [untouched.slist] at divides moved
  refine ⟨⟨divides, moved, facts.left, facts.right, ?_, nofun, nofun⟩, ?_⟩
  · rw [facts.remote, untouched.remote]
    exact ⟨meets.full.le, iff_true_intro meets.stored⟩
  · exact facts.otherBuffers calls.reader meets.others

/-- A transfer to another address than that of the divided node. -/
theorem shows_write {type : LinkedNodeType} {shown : Prop} {address written : RemotePointer} {size slot : Nat}
    (shows : Shows type calls.key (other.remote address) shown) (apart : address ≠ written) :
    Shows type calls.key ((other.write calls.writer written size slot .done).remote address) shown := by
  change Shows type calls.key (Function.update other.remote written _ address) shown
  rw [Function.update_of_ne apart]
  exact shows

/-- A half in its chunk. -/
theorem shows_written {shown : Prop} {written : RemotePointer} {slot : Nat}
    (shows : Shows .type10 calls.key (other.buffers calls.writer slot) shown) :
    Shows .type16 calls.key
      ((other.write calls.writer written (sizeofNode .type10) slot .done).remote written) shown := by
  change Shows .type16 calls.key (Function.update other.remote written _ written) shown
  rw [Function.update_self]
  exact (shows.overlay LinkedNodeType.isData10 _).large

/-- The predecessor's image is not the one that is divided. -/
theorem predData_ne (meets : SplitStart source calls node)
    (moved : ComputeNode.Moved node.slist other.slist calls.target (node.slist.nodes calls.target).dataNode
      (node.slist.nodes calls.target).type) :
    (node.slist.nodes calls.target).dataNode ≠ other.predData calls.target := by
  have isData : (node.slist.nodes calls.target).type.IsData := by
    rw [meets.isType]
    trivial
  obtain ⟨earlier, later, divided, _, _⟩ := meets.wellFormed.routed meets.keyRouted isData
  have isMember := ComputeNode.mem_of_divided divided
  obtain ⟨predMember, notTarget⟩ := meets.wellFormed.backwardOf_mem isMember
  have sameBackward : other.backwardOf calls.target = node.backwardOf calls.target := by
    unfold ComputeNode.backwardOf
    rw [moved.backward]
  have samePred : other.predData calls.target = node.predData calls.target := by
    unfold ComputeNode.predData
    rw [sameBackward, moved.dataNode, if_neg notTarget]
  rw [samePred]
  exact meets.wellFormed.dataNode_ne (List.mem_cons_of_mem _ isMember) predMember notTarget.symm

/-- One store of the put. -/
theorem Running.publishNext {stage after : SplitStage} {result : ComputeNode} (meets : SplitStart source calls node)
    (divides : Divides calls node.slist halves) (running : Running calls node.slist stage halves other)
    (stepped : publishNext calls halves other stage = some (after, result)) :
    Running calls node.slist after halves result ∧ result.buffers = other.buffers := by
  obtain ⟨layout, left, right, old, leftImage, rightImage⟩ := running
  cases stage with
  | staged =>
      cases stepped
      refine ⟨⟨layout, left, right, ?_, nofun, nofun⟩, rfl⟩
      exact shows_write old (predData_ne meets layout)
  | predWritten =>
      cases stepped
      refine ⟨⟨layout, left, right, ?_, fun _ => ?_, nofun⟩, rfl⟩
      · exact shows_write old divides.leftNew.symm
      · exact shows_written left
  | leftWritten =>
      cases stepped
      refine ⟨⟨layout, left, right, ?_, fun _ => ?_, fun _ => ?_⟩, rfl⟩
      · exact shows_write old divides.rightNew.symm
      · exact shows_write (leftImage rfl) divides.apart
      · exact shows_written right
  | rightWritten =>
      cases stepped
      refine ⟨⟨?_, left, right, old, fun _ => leftImage rfl, fun _ => rightImage rfl⟩, rfl⟩
      have placed := ComputeNode.moved_setDataNode other.slist calls.target halves.l
      have sameType := layout.type calls.target
      rw [if_pos rfl] at sameType
      rw [sameType] at placed
      exact layout.trans placed
  | moved =>
      cases stepped
      refine ⟨⟨?_, left, right, old, fun _ => leftImage rfl, fun _ => rightImage rfl⟩, rfl⟩
      exact published_publishBehind meets divides layout
  | published newNode =>
      cases stepped
      have linked : Published calls node.slist halves
          (other.slist.setBackward newNode (some calls.target)) :=
        Published.congr layout (sameSearch_setBackward _ _ _) (dataNode_setBackward _ _ _)
      split
      next => exact ⟨⟨linked, left, right, old, leftImage, rightImage⟩, rfl⟩
      next => exact ⟨⟨linked, left, right, old, leftImage, rightImage⟩, rfl⟩
  | linked =>
      cases stepped
      have typed := ComputeNode.moved_setType other.slist calls.target .type10
      refine ⟨⟨?_, left, right, old, leftImage, rightImage⟩, rfl⟩
      apply Published.congr layout (sameSearch_of_moved typed)
      intro id
      rw [typed.dataNode]
      split
      next isTarget => rw [isTarget]
      next => rfl
  | retyped =>
      cases stepped
      have released := ComputeNode.release_moved other calls.writer calls.target
      refine ⟨⟨?_, left, right, old, leftImage, rightImage⟩, rfl⟩
      apply Published.congr layout (sameSearch_of_moved released)
      intro id
      rw [released.dataNode]
      split
      next isTarget => rw [isTarget]
      next => rfl
  | returned => cases stepped

/-! ### The get, read by read -/

/-- A node that a search for the key names, and that a search may still be at. -/
inductive Named (calls : SplitCalls) (before : SkipList) (put : SplitProgress) : NodeId → Prop where
  | target : Named calls before put calls.target
  | right {stage : SplitStage} {halves : SplitHalves} (isRunning : put = .running stage halves)
      (isPublished : stage.isPublished = true) (atLeast : halves.anchor ≤ calls.key.val) :
      Named calls before put before.count

/-- An address that a get has read from a named node, and whether its image shows the key. -/
inductive Addressed (calls : SplitCalls) (before : SkipList) (put : SplitProgress) :
    RemotePointer → Prop → Prop where
  | old : Addressed calls before put (before.nodes calls.target).dataNode True
  | left {stage : SplitStage} {halves : SplitHalves} (isRunning : put = .running stage halves)
      (rightDone : stage.rightDone = true) :
      Addressed calls before put halves.l (calls.key.val < halves.anchor)
  | right {stage : SplitStage} {halves : SplitHalves} (isRunning : put = .running stage halves)
      (rightDone : stage.rightDone = true) (atLeast : halves.anchor ≤ calls.key.val) :
      Addressed calls before put halves.r (halves.anchor ≤ calls.key.val)

/-- What holds of a get, whatever the put does. -/
def GetSide (calls : SplitCalls) (before : SkipList) (put : SplitProgress) (buffer : LinkedNode) :
    GetProgress → Prop
  | .called => True
  | .searched found => Named calls before put found
  | .addressed _ address => ∃ shown, Addressed calls before put address shown
  | .fetched _ address => ∃ shown, Addressed calls before put address shown ∧ Shows .type16 calls.key buffer shown
  | .typed address _ => ∃ shown, Addressed calls before put address shown ∧ Shows .type16 calls.key buffer shown
  | .returned _ => True

variable {put : SplitProgress}

omit [Digest] in
/-- The put goes on with the halves it has. -/
theorem publishNext_done {stage after : SplitStage} {result : ComputeNode}
    (stepped : publishNext calls halves other stage = some (after, result)) :
    (stage.rightDone = true → after.rightDone = true) ∧ (stage.isPublished = true → after.isPublished = true) := by
  cases stage <;> cases stepped <;> simp [SplitStage.rightDone, SplitStage.isPublished]

/-- What a get knows stays true when the put goes on. -/
structure PutGoesOn (put after : SplitProgress) : Prop where
  rightDone : ∀ stage halves, put = .running stage halves → stage.rightDone = true →
    ∃ later, after = .running later halves ∧ later.rightDone = true
  isPublished : ∀ stage halves, put = .running stage halves → stage.isPublished = true →
    ∃ later, after = .running later halves ∧ later.isPublished = true

variable {after : SplitProgress} {buffer : LinkedNode} {address : RemotePointer} {shown : Prop}

omit [Digest] in
theorem Named.later {found : NodeId} (named : Named calls before put found) (on : PutGoesOn put after) :
    Named calls before after found := by
  cases named with
  | target => exact .target
  | right isRunning isPublished atLeast =>
      obtain ⟨later, isLater, stillPublished⟩ := on.isPublished _ _ isRunning isPublished
      exact .right isLater stillPublished atLeast

omit [Digest] in
theorem Addressed.later (addressed : Addressed calls before put address shown) (on : PutGoesOn put after) :
    Addressed calls before after address shown := by
  cases addressed with
  | old => exact .old
  | left isRunning rightDone =>
      obtain ⟨later, isLater, stillDone⟩ := on.rightDone _ _ isRunning rightDone
      exact .left isLater stillDone
  | right isRunning rightDone atLeast =>
      obtain ⟨later, isLater, stillDone⟩ := on.rightDone _ _ isRunning rightDone
      exact .right isLater stillDone atLeast

theorem GetSide.later {get : GetProgress} (side : GetSide calls before put buffer get)
    (on : PutGoesOn put after) : GetSide calls before after buffer get := by
  cases get with
  | called => trivial
  | searched found => exact Named.later side on
  | addressed found address =>
      obtain ⟨shown, addressed⟩ := side
      exact ⟨shown, addressed.later on⟩
  | fetched found address =>
      obtain ⟨shown, addressed, shows⟩ := side
      exact ⟨shown, addressed.later on, shows⟩
  | typed address type =>
      obtain ⟨shown, addressed, shows⟩ := side
      exact ⟨shown, addressed.later on, shows⟩
  | returned result => trivial

/-- Before the right half is linked, the divided node has moved at most. -/
inductive LayoutCases (calls : SplitCalls) (before : SkipList) (halves : SplitHalves) (slist : SkipList)
    (stage : SplitStage) : Prop where
  | unmoved (isPublished : stage.isPublished = false)
      (moved : ComputeNode.Moved before slist calls.target (before.nodes calls.target).dataNode
        (before.nodes calls.target).type)
  | moved (isPublished : stage.isPublished = false) (rightDone : stage.rightDone = true)
      (moved : ComputeNode.Moved before slist calls.target halves.l (before.nodes calls.target).type)
  | published (isPublished : stage.isPublished = true) (rightDone : stage.rightDone = true)
      (published : Published calls before halves slist)

omit [Digest] in
theorem Layout.cases {stage : SplitStage} (layout : Layout calls before halves slist stage) :
    LayoutCases calls before halves slist stage := by
  cases stage with
  | staged => exact .unmoved rfl layout
  | predWritten => exact .unmoved rfl layout
  | leftWritten => exact .unmoved rfl layout
  | rightWritten => exact .unmoved rfl layout
  | moved => exact .moved rfl rfl layout
  | published newNode => exact .published rfl rfl layout
  | linked => exact .published rfl rfl layout
  | retyped => exact .published rfl rfl layout
  | returned => exact .published rfl rfl layout

/-- A search during the put. -/
theorem PutSide.named (side : PutSide calls node other put) (meets : SplitStart source calls node)
    {found : NodeId} (isFound : other.slist.fuzzySearch calls.key.val = some found) :
    Named calls node.slist put found := by
  have unchanged : SkipList.SameSearch other.slist node.slist → Named calls node.slist put found := by
    intro same
    rw [same.fuzzySearch, meets.keyRouted] at isFound
    cases isFound
    exact .target
  cases put with
  | called =>
      rw [side.slist, meets.keyRouted] at isFound
      cases isFound
      exact .target
  | running stage halves =>
      cases side.2.layout.cases with
      | unmoved _ moved => exact unchanged (sameSearch_of_moved moved)
      | moved _ _ moved => exact unchanged (sameSearch_of_moved moved)
      | published isPublished _ published =>
          rw [published.routed] at isFound
          by_cases below : calls.key.val < halves.anchor
          · rw [if_pos below] at isFound
            cases isFound
            exact .target
          · rw [if_neg below] at isFound
            cases isFound
            exact .right rfl isPublished (not_lt.mp below)

/-- Reading `data_node` during the put. -/
theorem PutSide.addressed (side : PutSide calls node other put) {found : NodeId}
    (named : Named calls node.slist put found) :
    ∃ shown, Addressed calls node.slist put (other.slist.nodes found).dataNode shown := by
  cases put with
  | called =>
      cases named with
      | target =>
          rw [side.slist]
          exact ⟨_, .old⟩
      | right isRunning => cases isRunning
  | running stage halves =>
      cases named with
      | target =>
          cases side.2.layout.cases with
          | unmoved _ moved =>
              rw [moved.dataNode, if_pos rfl]
              exact ⟨_, .old⟩
          | moved _ rightDone moved =>
              rw [moved.dataNode, if_pos rfl]
              exact ⟨_, .left rfl rightDone⟩
          | published _ rightDone published =>
              rw [published.left]
              exact ⟨_, .left rfl rightDone⟩
      | right isRunning isPublished atLeast =>
          cases isRunning
          cases side.2.layout.cases with
          | unmoved notPublished => exact absurd isPublished (by rw [notPublished]; decide)
          | moved notPublished => exact absurd isPublished (by rw [notPublished]; decide)
          | published _ rightDone published =>
              rw [published.right]
              exact ⟨_, .right rfl rightDone atLeast⟩

/-- A fetch during the put. -/
theorem PutSide.shows (side : PutSide calls node other put) (meets : SplitStart source calls node)
    (addressed : Addressed calls node.slist put address shown) :
    Shows .type16 calls.key (other.remote address) shown := by
  cases put with
  | called =>
      cases addressed with
      | old =>
          rw [side.remote]
          exact ⟨meets.full.le, iff_true_intro meets.stored⟩
      | left isRunning => cases isRunning
      | right isRunning => cases isRunning
  | running stage halves =>
      have leftDone : stage.rightDone = true → stage.leftDone = true := by
        cases stage <;> simp [SplitStage.rightDone, SplitStage.leftDone]
      cases addressed with
      | old => exact side.2.old
      | left isRunning rightDone =>
          cases isRunning
          exact side.2.leftImage (leftDone rightDone)
      | right isRunning rightDone =>
          cases isRunning
          exact side.2.rightImage rightDone

/-! ### Runs -/

/-- The get has returned a value exactly if every step so far has seen the key. -/
def Outcome (met : Prop) : GetProgress → Prop
  | .returned result => result.isSome = true ↔ met
  | _ => met

structure Progressed (calls : SplitCalls) (node : ComputeNode) (met : Prop) (race : SplitRace) : Prop where
  put : PutSide calls node race.node race.put
  get : GetSide calls node.slist race.put (race.node.buffers calls.reader 0) race.get
  outcome : Outcome met race.get

/-- A step of the get leaves everything that the put works on. -/
theorem PutSide.beside {result : ComputeNode} (side : PutSide calls node other put)
    (untouched : Untouched other result) (buffers : result.buffers calls.writer = other.buffers calls.writer) :
    PutSide calls node result put := by
  cases put with
  | called =>
      exact ⟨untouched.slist.trans side.slist, untouched.heap.trans side.heap,
        untouched.remote.trans side.remote, untouched.updateQueue.trans side.updateQueue⟩
  | running stage halves =>
      obtain ⟨divides, layout, left, right, old, leftImage, rightImage⟩ := side
      refine ⟨divides, ?_, ?_, ?_, ?_, ?_, ?_⟩
      · rw [untouched.slist]
        exact layout
      · rw [buffers]
        exact left
      · rw [buffers]
        exact right
      · rw [untouched.remote]
        exact old
      · rw [untouched.remote]
        exact leftImage
      · rw [untouched.remote]
        exact rightImage

theorem progressed_start (calls : SplitCalls) (node : ComputeNode) :
    Progressed calls node True (SplitRace.start node) :=
  ⟨⟨rfl, rfl, rfl, rfl⟩, trivial, trivial⟩

variable {met : Prop} {race : SplitRace}

/-- One step of the put. -/
theorem Progressed.stepPut {result : SplitRace} (progressed : Progressed calls node met race)
    (meets : SplitStart source calls node) (stepped : race.stepPut source calls = some result) :
    Progressed calls node (met ∧ race.SeesKey calls .put) result := by
  obtain ⟨shared, get, put⟩ := race
  obtain ⟨putSide, getSide, outcome⟩ := progressed
  have isMet : (met ∧ SplitRace.SeesKey calls ⟨shared, get, put⟩ .put) = met := and_true met
  rw [isMet]
  cases put with
  | called =>
      obtain ⟨⟨halves, staged⟩, isStaged, isResult⟩ := Option.map_eq_some_iff.mp stepped
      cases isResult
      obtain ⟨running, buffers⟩ := Untouched.stages putSide meets isStaged
      refine ⟨running, ?_, outcome⟩
      change GetSide calls node.slist _ (staged.buffers calls.reader 0) get
      rw [buffers]
      exact getSide.later ⟨nofun, nofun⟩
  | running stage halves =>
      obtain ⟨⟨after, next⟩, isNext, isResult⟩ := Option.map_eq_some_iff.mp stepped
      cases isResult
      obtain ⟨running, buffers⟩ := putSide.2.publishNext meets putSide.1 isNext
      obtain ⟨rightDone, isPublished⟩ := publishNext_done isNext
      refine ⟨⟨putSide.1, running⟩, ?_, outcome⟩
      change GetSide calls node.slist _ (next.buffers calls.reader 0) get
      rw [buffers]
      apply getSide.later
      constructor
      · intro before halves isRunning done
        cases isRunning
        exact ⟨after, rfl, rightDone done⟩
      · intro before halves isRunning done
        cases isRunning
        exact ⟨after, rfl, isPublished done⟩

/-- A get that accepts its buffer finds the key exactly if the buffer is not the left half of
a key that has gone to the right one. -/
theorem Addressed.seesKey_iff {type : LinkedNodeType} {shared : ComputeNode}
    (addressed : Addressed calls node.slist put address shown) (side : PutSide calls node shared put)
    (accepted : crcValidate (shared.buffers calls.reader 0) type = (shared.buffers calls.reader 0).crc) :
    shown ↔ SplitRace.SeesKey calls ⟨shared, .typed address type, put⟩ .get := by
  have unfolded : SplitRace.SeesKey calls ⟨shared, .typed address type, put⟩ .get ↔
      ∀ stage halves, put = .running stage halves → address = halves.l → calls.key.val < halves.anchor := by
    constructor
    · intro sees
      exact sees address type rfl accepted
    · rintro sees _ _ isTyped -
      cases isTyped
      exact sees
  rw [unfolded]
  cases addressed with
  | old =>
      refine iff_of_true trivial fun stage halves isRunning isLeft => ?_
      subst isRunning
      exact absurd isLeft.symm side.1.leftNew
  | @left stage halves isRunning _ =>
      constructor
      · intro below stage halves isOther _
        rw [isRunning] at isOther
        cases isOther
        exact below
      · intro sees
        exact sees stage halves isRunning rfl
  | right isRunning _ atLeast =>
      refine iff_of_true atLeast fun stage halves isOther isLeft => ?_
      rw [isRunning] at isOther
      cases isOther
      subst isRunning
      exact absurd isLeft.symm side.1.apart

/-- One step of the get. -/
theorem Progressed.stepGet {result : SplitRace} (progressed : Progressed calls node met race)
    (meets : SplitStart source calls node) (stepped : race.stepGet calls = some result) :
    Progressed calls node (met ∧ race.SeesKey calls .get) result := by
  obtain ⟨shared, get, put⟩ := race
  obtain ⟨putSide, getSide, outcome⟩ := progressed
  have notTyped : (∀ address type, get ≠ .typed address type) →
      (met ∧ SplitRace.SeesKey calls ⟨shared, get, put⟩ .get) = met := by
    intro differs
    apply propext
    apply and_iff_left
    intro address type isTyped
    exact absurd isTyped (differs address type)
  cases get with
  | called =>
      rw [notTyped (by simp)]
      obtain ⟨found, isFound, isResult⟩ := Option.map_eq_some_iff.mp stepped
      cases isResult
      refine ⟨putSide.beside ⟨rfl, rfl, rfl, rfl⟩ rfl, ?_, outcome⟩
      exact putSide.named meets isFound
  | searched found =>
      rw [notTyped (by simp)]
      cases stepped
      exact ⟨putSide, putSide.addressed getSide, outcome⟩
  | addressed found address =>
      rw [notTyped (by simp)]
      cases stepped
      obtain ⟨shown, addressed⟩ := getSide
      have otherBuffer : (shared.fetchAs calls.reader address).buffers calls.writer =
          shared.buffers calls.writer := by
        simp [ComputeNode.fetchAs, ComputeNode.read, ComputeNode.setSlot, meets.others.symm]
      have fetched : (shared.fetchAs calls.reader address).buffers calls.reader 0 =
          LinkedNode.overlay (sizeofNode .type16) (shared.remote address) (shared.buffers calls.reader 0) := by
        simp [ComputeNode.fetchAs, ComputeNode.read, ComputeNode.setSlot]
      refine ⟨putSide.beside ⟨rfl, rfl, rfl, rfl⟩ otherBuffer, ⟨shown, addressed, ?_⟩, outcome⟩
      change Shows .type16 calls.key ((shared.fetchAs calls.reader address).buffers calls.reader 0) shown
      rw [fetched]
      exact (putSide.shows meets addressed).overlay LinkedNodeType.isData16 _
  | fetched found address =>
      rw [notTyped (by simp)]
      cases stepped
      exact ⟨putSide, getSide, outcome⟩
  | typed address type =>
      cases stepped
      obtain ⟨shown, addressed, shows⟩ := getSide
      by_cases accepted : crcValidate (shared.buffers calls.reader 0) type =
          (shared.buffers calls.reader 0).crc
      · have sees := addressed.seesKey_iff putSide accepted
        refine ⟨putSide, ?_, ?_⟩
        · rw [if_pos accepted]
          trivial
        · rw [if_pos accepted]
          change ((shared.buffers calls.reader 0).find calls.key.val).isSome = true ↔ _
          rw [shows.found, sees]
          exact (and_iff_right outcome).symm
      · refine ⟨putSide, ?_, ?_⟩
        · rw [if_neg accepted]
          trivial
        · rw [if_neg accepted]
          refine ⟨outcome, fun otherAddress otherType isTyped wasAccepted => ?_⟩
          cases isTyped
          exact absurd wasAccepted accepted
  | returned result => cases stepped

theorem Progressed.run {turns : List RaceTurn} {final : SplitRace} (progressed : Progressed calls node met race)
    (meets : SplitStart source calls node) (ran : race.run source calls turns = some final) :
    Progressed calls node (met ∧ race.AllSeeKey source calls turns) final := by
  induction turns generalizing race met with
  | nil =>
      cases ran
      have isAll : (met ∧ final.AllSeeKey source calls []) = met := and_true met
      rw [isAll]
      exact progressed
  | cons turn turns inductionHypothesis =>
      obtain ⟨next, stepped, later⟩ := Option.bind_eq_some_iff.mp ran
      have after : Progressed calls node (met ∧ race.SeesKey calls turn) next := by
        cases turn with
        | get => exact progressed.stepGet meets stepped
        | put => exact progressed.stepPut meets stepped
      have isAll : (met ∧ race.AllSeeKey source calls (turn :: turns)) =
          ((met ∧ race.SeesKey calls turn) ∧ next.AllSeeKey source calls turns) := by
        apply propext
        rw [and_assoc]
        refine and_congr_right fun _ => and_congr_right fun _ => ?_
        constructor
        · intro all
          exact all next stepped
        · intro here other isOther
          rw [stepped] at isOther
          cases isOther
          exact here
      rw [isAll]
      exact inductionHypothesis after later

/-! ### The checksum of the left half -/

/-- The validation loop of `get` accepts the image for a node of this type. -/
def Accepted (type : LinkedNodeType) (image : LinkedNode) : Prop := crcValidate image type = image.crc

/-- A transfer that covers the pairs of the type. -/
theorem Accepted.overlay {type : LinkedNodeType} {image old : LinkedNode} {size : Nat}
    (accepted : Accepted type image) (isData : type.IsData) (covers : sizeofNode type ≤ size) :
    Accepted type (LinkedNode.overlay size image old) := by
  have whole := pairsOffset_le_sizeofNode isData
  have nonempty : size ≠ 0 := by
    have positive := Nat.pos_of_ne_zero (sizeofNode_ne_zero isData)
    omega
  unfold Accepted
  rw [LinkedNode.overlay_crc nonempty, ← accepted]
  apply crcValidate_congr
  intro index isCovered
  exact LinkedNode.overlay_pairs_of_le (by omega)

theorem accepted_linkHalves {thread : ThreadId} {l r : RemotePointer} {linked : ComputeNode}
    (isLinked : linkHalves source thread (sealHalves thread node) = (l, r, linked)) :
    Accepted .type10 (linked.buffers thread 1) := by
  unfold linkHalves at isLinked
  simp only [Prod.mk.injEq] at isLinked
  obtain ⟨-, -, isNode⟩ := isLinked
  rw [← isNode]
  simp only [ComputeNode.setSlot, ComputeNode.allocate, sealHalves, Function.update_self]
  simp only [Function.update_of_ne (show (1 : Nat) ≠ 2 by decide), Function.update_self]
  rfl

theorem accepted_stageSplit {staged : ComputeNode} (isStaged : stageSplit source calls node = some (halves, staged)) :
    Accepted .type10 (staged.buffers calls.writer 1) := by
  unfold stageSplit at isStaged
  split at isStaged
  next => cases isStaged
  next won _ =>
    simp only at isStaged
    split at isStaged
    next => cases isStaged
    next =>
      cases isStaged
      exact accepted_linkHalves rfl

/-- A get that fetches the left half accepts it, once its node has the type of the half. -/
def LeftAccepted (calls : SplitCalls) (node : ComputeNode) : SplitProgress → Prop
  | .called => True
  | .running stage halves => halves.l ≠ halves.r → Accepted .type10 (node.buffers calls.writer 1) ∧
      (stage.leftDone = true → Accepted .type10 (node.remote halves.l))

theorem LeftAccepted.publishNext {stage after : SplitStage} {result : ComputeNode}
    (accepted : LeftAccepted calls other (.running stage halves))
    (stepped : publishNext calls halves other stage = some (after, result)) :
    LeftAccepted calls result (.running after halves) := by
  intro apart
  obtain ⟨buffer, image⟩ := accepted apart
  cases stage with
  | staged =>
      cases stepped
      exact ⟨buffer, nofun⟩
  | predWritten =>
      cases stepped
      refine ⟨buffer, fun _ => ?_⟩
      change Accepted .type10 (Function.update other.remote halves.l _ halves.l)
      rw [Function.update_self]
      exact buffer.overlay LinkedNodeType.isData10 le_rfl
  | leftWritten =>
      cases stepped
      refine ⟨buffer, fun _ => ?_⟩
      change Accepted .type10 (Function.update other.remote halves.r _ halves.l)
      rw [Function.update_of_ne apart]
      exact image rfl
  | rightWritten =>
      cases stepped
      exact ⟨buffer, image⟩
  | moved =>
      cases stepped
      exact ⟨buffer, image⟩
  | published newNode =>
      cases stepped
      split
      next => exact ⟨buffer, image⟩
      next => exact ⟨buffer, image⟩
  | linked =>
      cases stepped
      exact ⟨buffer, image⟩
  | retyped =>
      cases stepped
      exact ⟨buffer, image⟩
  | returned => cases stepped

theorem LeftAccepted.step {turn : RaceTurn} {result : SplitRace} (others : calls.reader ≠ calls.writer)
    (accepted : LeftAccepted calls race.node race.put) (stepped : race.step source calls turn = some result) :
    LeftAccepted calls result.node result.put := by
  obtain ⟨shared, get, put⟩ := race
  cases turn with
  | put =>
      cases put with
      | called =>
          obtain ⟨⟨halves, staged⟩, isStaged, isResult⟩ := Option.map_eq_some_iff.mp stepped
          cases isResult
          exact fun _ => ⟨accepted_stageSplit isStaged, nofun⟩
      | running stage halves =>
          obtain ⟨⟨after, next⟩, isNext, isResult⟩ := Option.map_eq_some_iff.mp stepped
          cases isResult
          exact accepted.publishNext isNext
  | get =>
      have kept : ∀ {next : ComputeNode}, next.buffers calls.writer = shared.buffers calls.writer →
          next.remote = shared.remote → LeftAccepted calls next put := by
        intro next buffers remote
        cases put with
        | called => trivial
        | running stage halves =>
            intro apart
            rw [buffers, remote]
            exact accepted apart
      cases get with
      | called =>
          obtain ⟨found, _, isResult⟩ := Option.map_eq_some_iff.mp stepped
          cases isResult
          exact kept rfl rfl
      | searched found =>
          cases stepped
          exact accepted
      | addressed found address =>
          cases stepped
          apply kept
          · simp [ComputeNode.fetchAs, ComputeNode.read, ComputeNode.setSlot, others.symm]
          · rfl
      | fetched found address =>
          cases stepped
          exact accepted
      | typed address type =>
          cases stepped
          exact accepted
      | returned result => cases stepped

theorem LeftAccepted.run {turns : List RaceTurn} {final : SplitRace} (others : calls.reader ≠ calls.writer)
    (accepted : LeftAccepted calls race.node race.put) (ran : race.run source calls turns = some final) :
    LeftAccepted calls final.node final.put := by
  induction turns generalizing race with
  | nil =>
      cases ran
      exact accepted
  | cons turn turns inductionHypothesis =>
      obtain ⟨next, stepped, later⟩ := Option.bind_eq_some_iff.mp ran
      exact inductionHypothesis (accepted.step others stepped) later

/-- The get has searched before the put starts, and the put has returned. -/
structure SearchedBefore (calls : SplitCalls) (race : SplitRace) (halves : SplitHalves) : Prop where
  get : race.get = .searched calls.target
  put : race.put = .running .returned halves
  apart : halves.l ≠ halves.r
  dataNode : (race.node.slist.nodes calls.target).dataNode = halves.l
  type : (race.node.slist.nodes calls.target).type = .type10

/-- Such a get returns what it finds in the left half. -/
theorem SearchedBefore.returns {turns : List RaceTurn} (searched : SearchedBefore calls race halves)
    (others : calls.reader ≠ calls.writer)
    (ran : (SplitRace.start node).run source calls turns = some race) :
    ∃ final, race.run source calls (List.replicate 4 .get) = some final ∧
      final.get = .returned (((race.node.fetchAs calls.reader halves.l).buffers calls.reader 0).find
        calls.key.val) := by
  have started : LeftAccepted calls (SplitRace.start node).node (SplitRace.start node).put := trivial
  have leftAccepted := started.run others ran
  obtain ⟨shared, get, put⟩ := race
  obtain ⟨isSearched, isReturned, apart, dataNode, type⟩ := searched
  cases isSearched
  cases isReturned
  change (shared.slist.nodes calls.target).dataNode = halves.l at dataNode
  have image := (leftAccepted apart).2 rfl
  have fetched : (shared.fetchAs calls.reader halves.l).buffers calls.reader 0 =
      LinkedNode.overlay (sizeofNode .type16) (shared.remote halves.l) (shared.buffers calls.reader 0) := by
    simp [ComputeNode.fetchAs, ComputeNode.read, ComputeNode.setSlot]
  have accepts : crcValidate ((shared.fetchAs calls.reader halves.l).buffers calls.reader 0) .type10 =
      ((shared.fetchAs calls.reader halves.l).buffers calls.reader 0).crc := by
    rw [fetched]
    exact image.overlay LinkedNodeType.isData10 (by decide)
  have sameType : ((shared.fetchAs calls.reader halves.l).slist.nodes calls.target).type = .type10 := type
  refine ⟨⟨shared.fetchAs calls.reader halves.l, .returned (((shared.fetchAs calls.reader halves.l).buffers
    calls.reader 0).find calls.key.val), .running .returned halves⟩, ?_, rfl⟩
  simp only [List.replicate, SplitRace.run, SplitRace.step, SplitRace.stepGet, Option.bind_some]
  rw [dataNode, sameType, if_pos accepts]

/-- The search comes before the put, which returns before the next read. -/
def searchFirst : List RaceTurn := .get :: List.replicate 9 .put

/-- A get that has searched first misses its key, if the left half lacks it. -/
theorem SearchedBefore.misses (searched : SearchedBefore calls race halves) (others : calls.reader ≠ calls.writer)
    (ran : (SplitRace.start node).run source calls searchFirst = some race)
    (lacks : ((race.node.fetchAs calls.reader halves.l).buffers calls.reader 0).find calls.key.val = none) :
    ∃ final, (SplitRace.start node).run source calls (searchFirst ++ List.replicate 4 .get) = some final ∧
      final.get = .returned none := by
  obtain ⟨final, later, isGet⟩ := searched.returns others ran
  rw [lacks] at isGet
  refine ⟨final, ?_, isGet⟩
  rw [run_append, ran]
  exact later

/-- Every key that goes to the right half is missed by the get that searches first. -/
theorem SplitStart.searchFirst_misses (meets : SplitStart source calls node) :
    ∃ race halves, (SplitRace.start node).run source calls searchFirst = some race ∧
      race.put = .running .returned halves ∧ (halves.anchor ≤ calls.key.val →
        ∃ final, (SplitRace.start node).run source calls (searchFirst ++ List.replicate 4 .get) = some final ∧
          final.get = .returned none) := by
  obtain ⟨drained, isDrained⟩ : ∃ drained, drained = (node.drainPending calls.reader).2 := ⟨_, rfl⟩
  have untouched : Untouched node drained := by
    rw [isDrained]
    exact ⟨rfl, rfl, rfl, rfl⟩
  obtain ⟨halves, staged, isStaged, _⟩ := stageSplit_staged (untouched.meets meets)
  have first : (SplitRace.start node).stepGet calls = some ⟨drained, .searched calls.target, .called⟩ := by
    unfold SplitRace.stepGet
    change Option.map _ (node.slist.fuzzySearch calls.key.val) = _
    rw [meets.keyRouted, isDrained]
    rfl
  have second : (⟨drained, .searched calls.target, .called⟩ : SplitRace).stepPut source calls =
      some ⟨staged, .searched calls.target, .running .staged halves⟩ := by
    change Option.map _ (stageSplit source calls drained) = _
    rw [isStaged]
    rfl
  have ran : (SplitRace.start node).run source calls searchFirst =
      some ⟨publishAll calls halves staged, .searched calls.target, .running .returned halves⟩ := by
    change ((SplitRace.start node).stepGet calls).bind _ = _
    rw [first]
    change (SplitRace.stepPut source calls ⟨drained, .searched calls.target, .called⟩).bind _ = _
    rw [second]
    exact publishAll_run source calls halves staged _
  have progressed := (progressed_start calls node).run meets ran
  obtain ⟨divides, running⟩ := progressed.put
  refine ⟨_, halves, ran, rfl, fun atLeast => ?_⟩
  apply SearchedBefore.misses ⟨rfl, rfl, divides.apart, running.layout.left, ?_⟩ meets.others ran
  · have fetched : (((publishAll calls halves staged).fetchAs calls.reader halves.l).buffers calls.reader 0) =
        LinkedNode.overlay (sizeofNode .type16) ((publishAll calls halves staged).remote halves.l)
          ((publishAll calls halves staged).buffers calls.reader 0) := by
      simp [ComputeNode.fetchAs, ComputeNode.read, ComputeNode.setSlot]
    have shows := (running.leftImage rfl).overlay LinkedNodeType.isData16
      ((publishAll calls halves staged).buffers calls.reader 0)
    rw [← fetched] at shows
    rw [← Option.not_isSome_iff_eq_none]
    intro found
    exact absurd (shows.found.mp found) (not_lt.mpr atLeast)
  · exact publishAll_type calls halves staged

/-! ### The get and the put -/

/-- A get beside a put that divides the node of its key: whatever it returns is a value,
exactly if it has never accepted the left half of a key that has gone to the right one. -/
theorem get_beside_split_iff (meets : SplitStart source calls node) {turns : List RaceTurn} {final : SplitRace}
    (ran : (SplitRace.start node).run source calls turns = some final) :
    (∀ result, final.get = .returned result → result.isSome = true) ↔
      (SplitRace.start node).AllSeeKey source calls turns := by
  have progressed := (progressed_start calls node).run meets ran
  have outcome := progressed.outcome
  rw [true_and] at outcome
  cases isGet : final.get with
  | returned result =>
      rw [isGet] at outcome
      constructor
      · intro isValue
        exact outcome.mp (isValue result rfl)
      · rintro sees _ isResult
        cases isResult
        exact outcome.mpr sees
  | _ =>
      rw [isGet] at outcome
      exact iff_of_true nofun outcome

end Racing

end SplitRace

end DiStore.Cluster

/-! ### Interleavings on concrete keys -/

namespace DiStore.Cluster.SplitRace

open DiStore.Concurrency DiStore.DataLayer DiStore.Memory DiStore.SearchLayer

attribute [local instance] Digests.source

/-- A get of the largest of sixteen keys, and a put into their node. -/
def crowdedCalls : SplitCalls where
  reader := 1
  key := .fill 112
  writer := 0
  newKey := .fill 120
  newValue := .fill 2
  target := 1
  level := ⟨1, level_one⟩

theorem crowded_meets : SplitStart (.memoryNode 0) crowdedCalls (ComputeNode.crowded .type16 0) where
  wellFormed := ComputeNode.crowded_wellFormed
  idle := ComputeNode.crowded_idle
  others := by decide
  keyRouted := by decide +kernel
  putRouted := by decide +kernel
  isType := by decide +kernel
  full := by decide +kernel
  stored := by decide +kernel

theorem search_first_misses_key :
    ¬ (SplitRace.start (ComputeNode.crowded .type16 0)).AllSeeKey (.memoryNode 0) crowdedCalls
      (searchFirst ++ List.replicate 4 .get) := by
  obtain ⟨race, halves, ran, isReturned, misses⟩ := crowded_meets.searchFirst_misses
  have facts : ((SplitRace.start (ComputeNode.crowded .type16 0)).run (.memoryNode 0) crowdedCalls
      searchFirst).map (fun race => decide (race.put =
        .running .returned ⟨(Bytes16.fill 106).val, 8192, 8704⟩)) = some true := by decide +kernel
  rw [ran] at facts
  have isPut := of_decide_eq_true (Option.some.inj facts)
  rw [isReturned] at isPut
  cases isPut
  obtain ⟨final, hidden, isGet⟩ := misses (by decide)
  intro sees
  have isValue := (get_beside_split_iff crowded_meets hidden).mpr sees none isGet
  cases isValue

/-- A get of the largest of sixteen keys in the first of two nodes, and the put of the next one. -/
def nextCalls : SplitCalls where
  reader := 1
  key := .fill 112
  writer := 0
  newKey := .fill 113
  newValue := .fill 1
  target := 1
  level := ⟨1, level_one⟩

/-- The seventeenth put stores the key of the get, the eighteenth one divides its node. -/
theorem split_hides_stored_key :
    ¬ ∀ before node key (value : Bytes16) flush draws, ComputeNode.PutRun (.memoryNode 0) 0 before →
      ComputeNode.AllWritesDone flush draws →
        before.put (.memoryNode 0) 0 key.val value.val flush draws = (.returned true, node) →
          node.remotePut = true → ∀ calls : SplitCalls, calls.key = key → calls.reader ≠ calls.writer →
            node.slist.fuzzySearch calls.newKey.val = some calls.target →
              ∀ turns final, (SplitRace.start node).run (.memoryNode 0) calls turns = some final →
                ∀ result, final.get = .returned result → result.isSome = true := by
  intro shown
  have facts : ComputeNode.putSixteen.bind (fun before =>
      ((SplitRace.start (before.putFirst (.fill 112)).2).run (.memoryNode 0) nextCalls searchFirst).map
        fun race => decide (before.remotePut = true ∧ before.slist.RoutesTo (Bytes16.fill 112).val 1 2 ∧
          (before.putFirst (.fill 112)).1 = .returned true ∧
          (before.putFirst (.fill 112)).2.remotePut = true ∧
          (before.putFirst (.fill 112)).2.slist.RoutesTo (Bytes16.fill 113).val 1 2 ∧
          race.get = .searched 1 ∧ race.put = .running .returned ⟨(Bytes16.fill 106).val, 13312, 13824⟩ ∧
          (race.node.slist.nodes 1).dataNode = 13312 ∧ (race.node.slist.nodes 1).type = .type10 ∧
          ((race.node.fetchAs 1 13312).buffers 1 0).find (Bytes16.fill 112).val = none)) = some true := by
    decide +kernel
  obtain ⟨before, reached, isBefore⟩ := Option.bind_eq_some_iff.mp facts
  obtain ⟨race, ran, isRace⟩ := Option.map_eq_some_iff.mp isBefore
  obtain ⟨flushed, routed, returned, flushedNext, routedNext, isSearched, isReturned, dataNode, type,
    lacks⟩ := of_decide_eq_true isRace
  have searched : SearchedBefore nextCalls race ⟨(Bytes16.fill 106).val, 13312, 13824⟩ :=
    ⟨isSearched, isReturned, by decide, dataNode, type⟩
  obtain ⟨final, hidden, isGet⟩ := searched.misses (by decide) ran lacks
  have isPut : before.put (.memoryNode 0) 0 (Bytes16.fill 112).val (Bytes16.fill 1).val ComputeNode.drawsDone
      ComputeNode.writesDone = (.returned true, (before.putFirst (.fill 112)).2) := by
    rw [ComputeNode.put_of_found _ _ flushed routed.found]
    exact Prod.ext returned rfl
  have isValue := shown before _ (.fill 112) (.fill 1) _ _ (ComputeNode.putAll_run reached) ComputeNode.allDone
    isPut flushedNext nextCalls rfl (by decide) routedNext.found _ final hidden none isGet
  cases isValue

end DiStore.Cluster.SplitRace
