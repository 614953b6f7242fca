import DiStore.Cluster.PutRun

/-!
Contract: the three ways in which data nodes are chained.

Owns: the bottom level as a list of nodes, what `backward` and `rlink` are to lead to
(`ComputeNode.NodesChained`), which puts break it, and the runs in which none does.

`async_update` points the new node back to the split one, and leaves the `backward` of the node
behind both as it was. The next put that moves that node then links the split one to it.
-/

set_option autoImplicit false

namespace DiStore

open DiStore.Concurrency DiStore.DataLayer DiStore.Library DiStore.Memory DiStore.SearchLayer

/-! ### The bottom level -/

namespace SearchLayer.SkipList

variable {slist changed : SkipList} {chain earlier later : List NodeId} {target : NodeId}

/-- The bottom level visits every node once. -/
structure Bottom (slist : SkipList) (chain : List NodeId) : Prop where
  linked : Linked (slist.forward 0) head chain
  nodup : (head :: chain).Nodup
  mem_iff : ∀ id, id ∈ head :: chain ↔ id < slist.count

theorem Bottom.levelChain_eq (bottom : slist.Bottom chain) : slist.levelChain 0 = chain := by
  unfold levelChain
  apply follow_eq bottom.linked
  have within : head :: chain ⊆ List.range slist.count := fun id isMember =>
    List.mem_range.mpr ((bottom.mem_iff id).mp isMember)
  have bounded := (List.Nodup.subperm bottom.nodup within).length_le
  rw [List.length_range, List.length_cons] at bounded
  exact Nat.le_of_succ_le bounded

theorem Bottom.congr (bottom : slist.Bottom chain) (forward : changed.forward 0 = slist.forward 0)
    (count : changed.count = slist.count) : changed.Bottom chain := by
  constructor
  · rw [forward]
    exact bottom.linked
  · exact bottom.nodup
  · intro id
    rw [count]
    exact bottom.mem_iff id

theorem Bottom.mem_chain (bottom : slist.Bottom chain) (known : target < slist.count)
    (notHead : target ≠ head) : target ∈ chain := by
  rcases List.mem_cons.mp ((bottom.mem_iff target).mpr known) with isHead | isMember
  · exact absurd isHead notHead
  · exact isMember

theorem Bottom.ne_head (bottom : slist.Bottom chain) (isMember : target ∈ chain) : target ≠ head := by
  intro isHead
  rw [isHead] at isMember
  exact (List.nodup_cons.mp bottom.nodup).1 isMember

/-- `async_update` splices the new node in behind the one it is given. -/
theorem forward_linkBehind (slist : SkipList) {dataNode : NodeId} (known : dataNode < slist.count)
    (anchor : Str) (type : LinkedNodeType) (remote : RemotePointer) :
    (slist.linkBehind dataNode anchor type remote).2.forward 0 =
      Linked.splice (slist.forward 0) dataNode slist.count := by
  have older : dataNode ≠ slist.count := known.ne
  funext id
  by_cases isData : id = dataNode
  · rw [isData, Linked.splice_last]
    simp [linkBehind, publishBehind, makeNewNode, setForward, setBackward, setNode, forward, older]
  · by_cases isNew : id = slist.count
    · rw [isNew, Linked.splice_fresh older.symm]
      simp [linkBehind, publishBehind, makeNewNode, setForward, setBackward, setNode, forward, older.symm]
    · rw [Linked.splice_of_ne isData isNew]
      simp [linkBehind, publishBehind, makeNewNode, setForward, setBackward, setNode, forward, isData, isNew]

theorem Bottom.linkBehind (bottom : slist.Bottom (earlier ++ target :: later)) (anchor : Str)
    (type : LinkedNodeType) (remote : RemotePointer) :
    (slist.linkBehind target anchor type remote).2.Bottom
      (earlier ++ target :: slist.count :: later) := by
  have known : target < slist.count := (bottom.mem_iff target).mp
    (List.mem_cons_of_mem _ (List.mem_append_right _ List.mem_cons_self))
  have isFresh : slist.count ∉ head :: (earlier ++ target :: later) := by
    rw [bottom.mem_iff]
    exact lt_irrefl _
  have moveFirst : ∀ rest : List NodeId, earlier ++ target :: rest = (earlier ++ [target]) ++ rest :=
    fun rest => by rw [List.append_assoc, List.singleton_append]
  have count := (linkBehind_created slist target anchor remote type).2.count
  have perm : (head :: (earlier ++ target :: slist.count :: later)).Perm
      (slist.count :: head :: (earlier ++ target :: later)) := by
    rw [moveFirst (slist.count :: later), moveFirst later, ← List.cons_append, ← List.cons_append]
    exact List.perm_middle
  constructor
  · rw [forward_linkBehind slist known, moveFirst]
    have linked := bottom.linked
    have nodup := bottom.nodup
    rw [moveFirst] at linked nodup isFresh
    exact linked.insert nodup isFresh List.getLastD_concat
  · exact perm.nodup_iff.mpr (List.nodup_cons.mpr ⟨isFresh, bottom.nodup⟩)
  · intro id
    rw [perm.mem_iff, List.mem_cons, bottom.mem_iff, count, or_comm]
    exact Nat.lt_succ_iff_lt_or_eq.symm

/-- `calibrate` links upper levels. -/
theorem forward_calibrate (slist : SkipList) (node : NodeId) (level : Nat) :
    (slist.calibrate node level).forward 0 = slist.forward 0 := by
  have nodup : (List.range' 1 (level - 1)).Nodup := List.nodup_range'
  obtain ⟨_, _, forwards⟩ := linkLevels_spec (slist.predecessors (slist.nodes node).anchor 1) node
    { slist with currentLevel := max slist.currentLevel level } nodup
  have notZero : 0 ∉ List.range' 1 (level - 1) := by
    rw [List.mem_range'_1]
    omega
  unfold calibrate
  rw [forwards, if_neg notZero]
  rfl

/-- The walk of a search ends at `target`, and the key lies below the anchor of the next node. -/
def RoutesTo (slist : SkipList) (key : Str) (target next : NodeId) : Prop :=
  (slist.descend key 0 slist.currentLevel head fun _ => head).1 = target ∧
    slist.forward 0 target = some next ∧ key < (slist.nodes next).anchor ∧
    ¬ key < (slist.nodes target).anchor

instance (slist : SkipList) (key : Str) (target next : NodeId) : Decidable (slist.RoutesTo key target next) :=
  inferInstanceAs (Decidable (_ ∧ _ ∧ _ ∧ _))

theorem RoutesTo.found {key : Str} {next : NodeId} (routed : slist.RoutesTo key target next) :
    slist.fuzzySearch key = some target := by
  obtain ⟨walked, isNext, below, notBelow⟩ := routed
  have differ : (slist.nodes next).anchor ≠ key := ne_of_gt below
  unfold fuzzySearch
  simp only [walked, isNext, if_neg differ, if_pos (And.intro below notBelow)]

end SearchLayer.SkipList

namespace Cluster.ComputeNode

variable {source : SegmentSource} {node start before after moved : ComputeNode} {thread : ThreadId}
variable {target id : NodeId} {chain : List NodeId} {remote : RemotePointer} {type : LinkedNodeType}

/-! ### Chained nodes -/

/-- The second node points back to the first one, whose image links to the second one's chunk. -/
structure Joined (node : ComputeNode) (left right : NodeId) : Prop where
  backward : (node.slist.nodes right).backward = some left
  rlink : (node.imageOf left).rlink = (node.slist.nodes right).dataNode

/-- Nodes that follow each other on the bottom level are joined, so that the chunks linked from the
first one are those of all nodes, in the order of the anchors. -/
structure NodesChained (node : ComputeNode) : Prop where
  joined : ∀ left ∈ node.chain, ∀ right, node.slist.forward 0 left = some right → node.Joined left right
  visits : ∀ first, node.chain.head? = some first →
    List.iterate (fun chunk => (node.remote chunk).rlink) (node.slist.nodes first).dataNode
      node.chain.length = node.chain.map fun id => (node.slist.nodes id).dataNode
  sorted : node.chain.Pairwise fun left right => node.slist.anchorOf left ≤ node.slist.anchorOf right

/-- What puts keep of the chain in any case. -/
structure Arranged (source : SegmentSource) (node : ComputeNode) (chain : List NodeId) : Prop where
  settled : Settled source node
  bottom : node.slist.Bottom chain
  front : ∀ first, chain.head? = some first → (node.slist.nodes first).backward = some SkipList.head
  separate : ∀ left < node.slist.count, ∀ right < node.slist.count, left ≠ right →
    (node.slist.nodes left).dataNode ≠ (node.slist.nodes right).dataNode
  tag : ∀ id ∈ chain, (node.imageOf id).type = (node.slist.nodes id).type
  fits : ∀ id ∈ chain, (node.imageOf id).next ≤ 16

namespace Arranged

variable (arranged : Arranged source start chain)

include arranged

theorem chain_eq : start.chain = chain := arranged.bottom.levelChain_eq

theorem known (isMember : id ∈ chain) : id < start.slist.count :=
  (arranged.bottom.mem_iff id).mp (List.mem_cons_of_mem _ isMember)

theorem isData (isMember : id ∈ chain) : (start.slist.nodes id).type.IsData :=
  (arranged.settled.placed id (arranged.known isMember) (arranged.bottom.ne_head isMember)).isData

theorem taken (isMember : id ∈ SkipList.head :: chain) :
    ¬ RemoteHeap.Reserve source start.heap (start.slist.nodes id).dataNode := by
  rcases List.mem_cons.mp isMember with isHead | inChain
  · rw [isHead]
    exact arranged.settled.headTaken
  · exact (arranged.settled.placed id (arranged.known inChain) (arranged.bottom.ne_head inChain)).taken

theorem next_mem (isMember : id ∈ SkipList.head :: chain) {right : NodeId}
    (isNext : start.slist.forward 0 id = some right) : right ∈ chain :=
  arranged.bottom.linked.next_mem isMember isNext

/-- The visit of all chunks follows from the links between neighbours. -/
theorem nodesChained (joined : ∀ left ∈ chain, ∀ right, start.slist.forward 0 left = some right →
      start.Joined left right)
    (sorted : chain.Pairwise fun left right => start.slist.anchorOf left ≤ start.slist.anchorOf right) :
    NodesChained start := by
  constructor
  case joined =>
    rw [arranged.chain_eq]
    exact joined
  case sorted =>
    rw [arranged.chain_eq]
    exact sorted
  case visits =>
    rw [arranged.chain_eq]
    have linked := arranged.bottom.linked
    cases chain with
    | nil =>
        intro first isFirst
        cases isFirst
    | cons first rest =>
        intro other isFirst
        cases isFirst
        exact linked.2.iterate_eq (fun chunk => (start.remote chunk).rlink)
          (fun id => (start.slist.nodes id).dataNode)
          fun left isLeft right isNext => (joined left isLeft right isNext).rlink

variable (chained : NodesChained start)

include chained

theorem joined (isMember : id ∈ chain) {right : NodeId} (isNext : start.slist.forward 0 id = some right) :
    start.Joined id right := by
  apply chained.joined id _ right isNext
  rw [arranged.chain_eq]
  exact isMember

/-- A chained node points back to the node before it, `head` included. -/
theorem backwardOf_eq (isMember : target ∈ chain) :
    start.backwardOf target ∈ SkipList.head :: chain ∧
      start.slist.forward 0 (start.backwardOf target) = some target := by
  obtain ⟨left, inChain, isNext⟩ := arranged.bottom.linked.exists_before isMember
  have isPred : start.backwardOf target = left := by
    unfold backwardOf
    rcases List.mem_cons.mp inChain with isHead | isLeft
    · have isFirst : chain.head? = some target := by
        rw [← arranged.bottom.linked.next_eq_head?, ← isHead]
        exact isNext
      rw [arranged.front target isFirst, isHead]
      rfl
    · rw [(arranged.joined chained isLeft isNext).backward]
      rfl
  rw [isPred]
  exact ⟨inChain, isNext⟩

/-- No other node is before it. -/
theorem pred_iff (isMember : target ∈ chain) (inChain : id ∈ chain) :
    id = start.backwardOf target ↔ start.slist.forward 0 id = some target := by
  obtain ⟨predMember, predNext⟩ := arranged.backwardOf_eq chained isMember
  constructor
  · intro isPred
    rw [isPred]
    exact predNext
  · intro isNext
    exact arranged.bottom.linked.before_unique arranged.bottom.nodup (List.mem_cons_of_mem _ inChain)
      predMember isNext predNext

end Arranged

/-- Steps that leave every node where it is: locks, and the links of the upper levels. -/
structure SameChain (before after : ComputeNode) : Prop where
  forward : after.slist.forward 0 = before.slist.forward 0
  count : after.slist.count = before.slist.count
  dataNode : ∀ id, (after.slist.nodes id).dataNode = (before.slist.nodes id).dataNode
  type : ∀ id, (after.slist.nodes id).type = (before.slist.nodes id).type
  backward : ∀ id, (after.slist.nodes id).backward = (before.slist.nodes id).backward
  anchor : ∀ id, after.slist.anchorOf id = before.slist.anchorOf id
  remote : after.remote = before.remote

namespace SameChain

variable (same : SameChain before after)

include same

theorem imageOf (id : NodeId) : after.imageOf id = before.imageOf id := by
  unfold ComputeNode.imageOf
  rw [same.dataNode, same.remote]

theorem arranged (arranged : Arranged source before chain) (settled : Settled source after) :
    Arranged source after chain := by
  constructor
  case settled => exact settled
  case bottom => exact arranged.bottom.congr same.forward same.count
  case front =>
    intro first isFirst
    rw [same.backward]
    exact arranged.front first isFirst
  case separate =>
    rw [same.count]
    intro left leftKnown right rightKnown differ
    rw [same.dataNode, same.dataNode]
    exact arranged.separate left leftKnown right rightKnown differ
  case tag =>
    intro id isMember
    rw [same.imageOf, same.type]
    exact arranged.tag id isMember
  case fits =>
    intro id isMember
    rw [same.imageOf]
    exact arranged.fits id isMember

theorem nodesChained (chained : NodesChained before) : NodesChained after := by
  have sameChain : after.chain = before.chain := by
    unfold chain SkipList.levelChain
    rw [same.forward, same.count]
  constructor
  case joined =>
    rw [sameChain, same.forward]
    intro left isLeft right isNext
    have joined := chained.joined left isLeft right isNext
    constructor
    · rw [same.backward]
      exact joined.backward
    · rw [same.imageOf, same.dataNode]
      exact joined.rlink
  case visits =>
    rw [sameChain]
    intro first isFirst
    simp only [same.remote, same.dataNode]
    exact chained.visits first isFirst
  case sorted =>
    rw [sameChain]
    simp only [same.anchor]
    exact chained.sorted

end SameChain

/-! ### One node gets another chunk -/

/-- The fields of an image that the chain depends on. -/
def chainFields (image : LinkedNode) : LinkedNodeType × Nat × RemotePointer :=
  (image.type, image.next, image.rlink)

theorem chainFields_overlay {size : Nat} (nonempty : size ≠ 0) (image old : LinkedNode) :
    chainFields (LinkedNode.overlay size image old) = chainFields image := by
  unfold chainFields
  rw [LinkedNode.overlay_type nonempty, LinkedNode.overlay_next nonempty, LinkedNode.overlay_rlink nonempty]

/-- The target moves to `remote`, the node before it is linked there, and the other images keep
their fields. -/
structure Relinks (start after : ComputeNode) (chain : List NodeId) (target : NodeId)
    (remote : RemotePointer) (type : LinkedNodeType) : Prop where
  moved : Moved start.slist after.slist target remote type
  apart : ∀ id ∈ SkipList.head :: chain, id ≠ target → (start.slist.nodes id).dataNode ≠ remote
  tag : (after.imageOf target).type = type
  fits : (after.imageOf target).next ≤ 16
  rlink : (after.imageOf target).rlink = (start.imageOf target).rlink
  others : ∀ id ∈ chain, id ≠ target → chainFields (after.imageOf id) =
    ((start.imageOf id).type, (start.imageOf id).next,
      if id = start.backwardOf target then remote else (start.imageOf id).rlink)

theorem Relinks.arranged (relinks : Relinks start after chain target remote type)
    (arranged : Arranged source start chain) (settled : Settled source after) :
    Arranged source after chain := by
  have moved := relinks.moved
  constructor
  case settled => exact settled
  case bottom => exact arranged.bottom.congr (funext (moved.forward 0)) moved.count
  case front =>
    intro first isFirst
    rw [moved.backward]
    exact arranged.front first isFirst
  case separate =>
    intro left leftKnown right rightKnown differ
    rw [moved.count] at leftKnown rightKnown
    rw [moved.dataNode, moved.dataNode]
    by_cases isLeft : left = target
    · have notRight : right ≠ target := fun isRight => differ (isLeft.trans isRight.symm)
      rw [if_pos isLeft, if_neg notRight]
      exact (relinks.apart right ((arranged.bottom.mem_iff right).mpr rightKnown) notRight).symm
    · rw [if_neg isLeft]
      by_cases isRight : right = target
      · rw [if_pos isRight]
        exact relinks.apart left ((arranged.bottom.mem_iff left).mpr leftKnown) isLeft
      · rw [if_neg isRight]
        exact arranged.separate left leftKnown right rightKnown differ
  case tag =>
    intro id isMember
    rw [moved.type]
    by_cases isTarget : id = target
    · rw [if_pos isTarget, isTarget]
      exact relinks.tag
    · rw [if_neg isTarget, ← arranged.tag id isMember]
      exact congrArg Prod.fst (relinks.others id isMember isTarget)
  case fits =>
    intro id isMember
    by_cases isTarget : id = target
    · rw [isTarget]
      exact relinks.fits
    · have same := congrArg (fun fields => fields.2.1) (relinks.others id isMember isTarget)
      exact le_of_eq_of_le same (arranged.fits id isMember)

/-- Chained nodes stay chained. -/
theorem Relinks.nodesChained (relinks : Relinks start after chain target remote type)
    (arranged : Arranged source start chain) (settled : Settled source after) (isMember : target ∈ chain)
    (chained : NodesChained start) : NodesChained after := by
  have moved := relinks.moved
  apply (relinks.arranged arranged settled).nodesChained
  · intro left isLeft right isNext
    rw [moved.forward] at isNext
    have before := arranged.joined chained isLeft isNext
    constructor
    · rw [moved.backward]
      exact before.backward
    · rw [moved.dataNode]
      by_cases isTarget : left = target
      · -- the node behind the target is another one
        have notTarget : right ≠ target := by
          intro same
          rw [same, isTarget] at before
          have placed := arranged.settled.placed target (arranged.known isMember)
            (arranged.bottom.ne_head isMember)
          apply placed.apart
          unfold backwardOf
          rw [before.backward]
          rfl
        rw [if_neg notTarget, isTarget, relinks.rlink, ← before.rlink, isTarget]
      · have linked := congrArg (fun fields => fields.2.2) (relinks.others left isLeft isTarget)
        simp only [chainFields, arranged.pred_iff chained isMember isLeft, isNext, Option.some.injEq] at linked
        rw [linked, before.rlink]
  · have sorted := chained.sorted
    rw [arranged.chain_eq] at sorted
    exact sorted.imp fun below => by
      rw [SkipList.anchorOf, SkipList.anchorOf, moved.anchor, moved.anchor]
      exact below

/-! ### What a put writes -/

namespace Arranged

variable (arranged : Arranged source start chain) (isMember : target ∈ chain)

include arranged isMember

theorem fetched_fields (thread : ThreadId) :
    chainFields (start.fetchedReal thread target) = chainFields (start.imageOf target) :=
  chainFields_overlay (sizeofNode_ne_zero (arranged.isData isMember)) _ _

/-- The image of the node before the target is written back with another link. -/
theorem others_fields (thread : ThreadId) (link : RemotePointer) (inChain : id ∈ chain) :
    chainFields (Function.update start.remote (start.predData target)
        (LinkedNode.overlay (sizeofNode (start.fetchedPred thread target).type)
          { start.fetchedPred thread target with rlink := link } (start.remote (start.predData target)))
        (start.slist.nodes id).dataNode) =
      ((start.imageOf id).type, (start.imageOf id).next,
        if id = start.backwardOf target then link else (start.imageOf id).rlink) := by
  have behind := (arranged.settled.placed target (arranged.known isMember)
    (arranged.bottom.ne_head isMember)).behind
  by_cases isPred : id = start.backwardOf target
  · rw [if_pos isPred]
    have isData := arranged.isData inChain
    have fetched : chainFields (start.fetchedPred thread target) = chainFields (start.imageOf id) := by
      unfold fetchedPred predData imageOf
      rw [← isPred]
      exact chainFields_overlay (sizeofNode_ne_zero isData) _ _
    have sameType : (start.fetchedPred thread target).type = (start.imageOf id).type :=
      congrArg Prod.fst fetched
    have sameNext : (start.fetchedPred thread target).next = (start.imageOf id).next :=
      congrArg (fun fields => fields.2.1) fetched
    have nonempty : sizeofNode (start.fetchedPred thread target).type ≠ 0 := by
      rw [sameType, arranged.tag id inChain]
      exact sizeofNode_ne_zero isData
    have place : start.predData target = (start.slist.nodes id).dataNode := by
      unfold predData
      rw [isPred]
    rw [place, Function.update_self, chainFields_overlay nonempty]
    unfold chainFields
    rw [sameType, sameNext]
  · rw [if_neg isPred, Function.update_of_ne]
    · rfl
    · exact arranged.separate id (arranged.known inChain) _ behind isPred

theorem fits_fetched (thread : ThreadId) : (start.fetchedReal thread target).next ≤ 16 := by
  have sameNext : (start.fetchedReal thread target).next = (start.imageOf target).next :=
    congrArg (fun fields => fields.2.1) (arranged.fetched_fields isMember thread)
  rw [sameNext]
  exact arranged.fits target isMember

end Arranged

variable [Digest] {key value : Str}

theorem store_rlink (image : LinkedNode) (capacity : Nat) (key value : Str) :
    (image.store capacity key value).2.rlink = image.rlink := by
  rcases LinkedNode.store_cases image capacity key value with ⟨_, eq⟩ | ⟨_, _, eq⟩ | ⟨_, _, eq⟩
  · rw [eq]
  · rw [eq]
  · rw [eq]
    rfl

/-- Writing in place keeps the chunk. -/
theorem relinks_inPlace (arranged : Arranged source start chain) (chained : NodesChained start)
    (isMember : target ∈ chain) (isType : (start.slist.nodes target).type = type)
    (room : (start.fetchedReal thread target).next < type.capacity)
    (moved : Moved start.slist after.slist target (start.slist.nodes target).dataNode type)
    (remote : after.remote = Function.update start.remote (start.slist.nodes target).dataNode
      (LinkedNode.overlay (sizeofNode type)
        ((start.fetchedReal thread target).store type.capacity key value).2 (start.imageOf target))) :
    Relinks start after chain target (start.slist.nodes target).dataNode type := by
  have known := arranged.known isMember
  have fields := arranged.fetched_fields isMember thread
  have nonempty : sizeofNode type ≠ 0 := isType ▸ sizeofNode_ne_zero (arranged.isData isMember)
  obtain ⟨stored, isStored⟩ : ∃ stored, stored =
    ((start.fetchedReal thread target).store type.capacity key value).2 := ⟨_, rfl⟩
  rw [← isStored] at remote
  have image : after.imageOf target =
      LinkedNode.overlay (sizeofNode type) stored (start.imageOf target) := by
    unfold imageOf
    rw [moved.dataNode, if_pos rfl, remote, Function.update_self]
    rfl
  have apart : ∀ id ∈ SkipList.head :: chain, id ≠ target →
      (start.slist.nodes id).dataNode ≠ (start.slist.nodes target).dataNode := fun id inChain isOther =>
    arranged.separate id ((arranged.bottom.mem_iff id).mp inChain) target known isOther
  constructor
  case moved => exact moved
  case apart => exact apart
  case tag =>
    rw [image, LinkedNode.overlay_type nonempty, isStored, store_type]
    have sameType : (start.fetchedReal thread target).type = (start.imageOf target).type :=
      congrArg Prod.fst fields
    rw [sameType, arranged.tag target isMember, isType]
  case fits =>
    rw [image, LinkedNode.overlay_next nonempty, isStored]
    exact (LinkedNode.store_next_le room.le key value).trans (capacity_le_sixteen type)
  case rlink =>
    rw [image, LinkedNode.overlay_rlink nonempty, isStored, store_rlink]
    exact congrArg (fun fields => fields.2.2) fields
  case others =>
    intro id inChain isOther
    have same : after.imageOf id = start.imageOf id := by
      unfold imageOf
      rw [moved.dataNode, if_neg isOther, remote,
        Function.update_of_ne (apart id (List.mem_cons_of_mem _ inChain) isOther)]
    rw [same]
    unfold chainFields
    by_cases isPred : id = start.backwardOf target
    · have isNext := (arranged.pred_iff chained isMember inChain).mp isPred
      rw [if_pos isPred, (arranged.joined chained inChain isNext).rlink]
    · rw [if_neg isPred]

/-- A larger chunk is linked from the node before. -/
theorem Rewritten.relinks (arranged : Arranged source start chain) (isMember : target ∈ chain)
    (isData : type.IsData)
    (rewritten : Rewritten source (start.fetchTwo thread target) thread target
      (start.fetchedPred thread target)
      (sealedAs type ((start.fetchedReal thread target).store 16 key value).2) [] remote moved) :
    Relinks start (moved.release thread target) chain target remote type := by
  have move : Moved start.slist (moved.release thread target).slist target remote type :=
    rewritten.moved.release thread
  have memory : (moved.release thread target).remote = moved.remote := rfl
  have nonempty := sizeofNode_ne_zero isData
  have image : (moved.release thread target).imageOf target = LinkedNode.overlay (sizeofNode type)
      (sealedAs type ((start.fetchedReal thread target).store 16 key value).2) (start.remote remote) := by
    unfold imageOf
    rw [move.dataNode, if_pos rfl, memory, rewritten.memory, Function.update_self]
    rfl
  have apart : ∀ id ∈ SkipList.head :: chain, id ≠ target → (start.slist.nodes id).dataNode ≠ remote := by
    intro id inChain _ same
    have taken := arranged.taken inChain
    rw [same] at taken
    exact taken rewritten.fresh
  constructor
  case moved => exact move
  case apart => exact apart
  case tag =>
    rw [image, LinkedNode.overlay_type nonempty]
    rfl
  case fits =>
    rw [image, LinkedNode.overlay_next nonempty]
    exact LinkedNode.store_next_le (arranged.fits_fetched isMember thread) key value
  case rlink =>
    rw [image, LinkedNode.overlay_rlink nonempty]
    have sameLink : (start.fetchedReal thread target).rlink = (start.imageOf target).rlink :=
      congrArg (fun fields => fields.2.2) (arranged.fetched_fields isMember thread)
    exact (store_rlink (start.fetchedReal thread target) 16 key value).trans sameLink
  case others =>
    intro id inChain isOther
    have place : (moved.release thread target).imageOf id = moved.remote (start.slist.nodes id).dataNode := by
      unfold imageOf
      rw [move.dataNode, if_neg isOther, memory]
    rw [place, rewritten.memory, Function.update_of_ne (apart id (List.mem_cons_of_mem _ inChain) isOther)]
    exact arranged.others_fields isMember thread remote inChain

/-! ### Splits -/

section Split

variable {earlier later : List NodeId} {left right : LinkedNode} {anchor : Str} {level : Level}
variable {l r : RemotePointer}

omit [Digest] in
/-- The new node comes right behind the one that was split. -/
theorem SplitInTwo.bottom {pred : LinkedNode} {leftArgument rightArgument : LinkedNodeType}
    {requests : List ConcurrencyRequest}
    (split : SplitInTwo source (start.fetchTwo thread target) thread target pred left right anchor
      leftArgument rightArgument requests level l r moved)
    (bottom : start.slist.Bottom (earlier ++ target :: later)) :
    (moved.release thread target).slist.Bottom (earlier ++ target :: start.slist.count :: later) := by
  obtain ⟨middle, first, second⟩ := split.linked
  have third := second.release thread
  have inMiddle := bottom.congr (funext (first.forward 0)) first.count
  have linked := inMiddle.linkBehind anchor right.type r
  have sameCount : middle.count = start.slist.count := first.count
  rw [sameCount] at linked
  exact linked.congr (funext (third.forward 0)) third.count

omit [Digest] in
/-- A node in the middle of the chain is split, and the one behind it points past the new node. -/
theorem SplitInTwo.unchains {pred : LinkedNode} {next : NodeId}
    {leftArgument rightArgument : LinkedNodeType} {requests : List ConcurrencyRequest}
    (arranged : Arranged source start (earlier ++ target :: next :: later)) (chained : NodesChained start)
    (split : SplitInTwo source (start.fetchTwo thread target) thread target pred left right anchor
      leftArgument rightArgument requests level l r moved) :
    ¬ NodesChained (moved.release thread target) := by
  intro chainedAfter
  have isMember : target ∈ earlier ++ target :: next :: later :=
    List.mem_append_right _ List.mem_cons_self
  have nextMember : next ∈ earlier ++ target :: next :: later :=
    List.mem_append_right _ (List.mem_cons_of_mem _ List.mem_cons_self)
  have known := arranged.known isMember
  have bottom := split.bottom arranged.bottom
  have ahead : start.slist.forward 0 target = some next := (arranged.bottom.linked.suffix).1
  have behind : (moved.release thread target).slist.forward 0 start.slist.count = some next := by
    have linked := bottom.linked
    rw [show earlier ++ target :: start.slist.count :: next :: later =
      (earlier ++ [target]) ++ start.slist.count :: next :: later by simp] at linked
    exact linked.suffix.1
  have newMember : start.slist.count ∈ (moved.release thread target).chain := by
    unfold chain
    rw [bottom.levelChain_eq]
    exact List.mem_append_right _ (List.mem_cons_of_mem _ List.mem_cons_self)
  have pointsBack := (chainedAfter.joined _ newMember next behind).backward
  have nodes := split.released known.ne
  have same := (nodes.others next (arranged.known nextMember).ne).2.1
  have old : (start.slist.nodes next).backward = some target :=
    (arranged.joined chained isMember ahead).backward
  change ((moved.release thread target).slist.nodes next).backward = (start.slist.nodes next).backward at same
  rw [same, old] at pointsBack
  exact known.ne (Option.some.inj pointsBack)

/-- The images and search nodes after the last node is split. -/
structure LastSplit (start after : ComputeNode) (chain : List NodeId) (target : NodeId) (anchor : Str)
    (l r : RemotePointer) : Prop where
  nodes : SplitNodes start.slist after.slist target anchor l r .type10 .type10
  forward : after.slist.forward 0 = Linked.splice (start.slist.forward 0) target start.slist.count
  differ : l ≠ r
  apart : ∀ id ∈ SkipList.head :: chain, (start.slist.nodes id).dataNode ≠ l ∧
    (start.slist.nodes id).dataNode ≠ r
  left : (after.imageOf target).type = .type10 ∧ (after.imageOf target).next ≤ 16 ∧
    (after.imageOf target).rlink = r
  right : (after.imageOf start.slist.count).type = .type10 ∧ (after.imageOf start.slist.count).next ≤ 16
  others : ∀ id ∈ chain, id ≠ target → chainFields (after.imageOf id) =
    ((start.imageOf id).type, (start.imageOf id).next,
      if id = start.backwardOf target then l else (start.imageOf id).rlink)

theorem SplitInTwo.lastSplit (arranged : Arranged source start chain) (isMember : target ∈ chain)
    (leftFits : left.next ≤ 16) (rightFits : right.next ≤ 16)
    (split : SplitInTwo source (start.fetchTwo thread target) thread target
      (start.fetchedPred thread target) (sealedAs .type10 left) (sealedAs .type10 right) anchor .type10
      .type10 [] level l r moved) :
    LastSplit start (moved.release thread target) chain target anchor l r := by
  have nodes := split.released (arranged.known isMember).ne
  change SplitNodes start.slist (moved.release thread target).slist target anchor l r .type10 .type10
    at nodes
  have memory : (moved.release thread target).remote = moved.remote := rfl
  have nonempty : sizeofNode .type10 ≠ 0 := sizeofNode_ne_zero LinkedNodeType.isData10
  have apart : ∀ id ∈ SkipList.head :: chain, (start.slist.nodes id).dataNode ≠ l ∧
      (start.slist.nodes id).dataNode ≠ r := by
    intro id inChain
    have taken := arranged.taken inChain
    constructor
    · intro same
      rw [same] at taken
      exact taken split.leftFresh.1
    · intro same
      rw [same] at taken
      exact taken split.rightFresh.1
  constructor
  case nodes => exact nodes
  case forward =>
    obtain ⟨middle, first, second⟩ := split.linked
    have third := second.release thread
    have sameCount : middle.count = start.slist.count := first.count
    have sameForward : middle.forward 0 = start.slist.forward 0 := funext (first.forward 0)
    have known : target < middle.count := sameCount ▸ arranged.known isMember
    rw [funext (third.forward 0), SkipList.forward_linkBehind middle known, sameForward, sameCount]
  case differ => exact split.differ
  case apart => exact apart
  case left =>
    have image : (moved.release thread target).imageOf target = LinkedNode.overlay (sizeofNode .type10)
        { sealedAs .type10 left with rlink := r } (start.remote l) := by
      unfold imageOf
      rw [nodes.left.1, memory, split.memory, Function.update_of_ne split.differ, Function.update_self]
      rfl
    rw [image, LinkedNode.overlay_type nonempty, LinkedNode.overlay_next nonempty,
      LinkedNode.overlay_rlink nonempty]
    exact ⟨rfl, leftFits, rfl⟩
  case right =>
    have image : (moved.release thread target).imageOf start.slist.count =
        LinkedNode.overlay (sizeofNode .type10)
          { sealedAs .type10 right with rlink := (sealedAs .type10 left).rlink } (start.remote r) := by
      unfold imageOf
      rw [nodes.right.1, memory, split.memory, Function.update_self]
      rfl
    rw [image, LinkedNode.overlay_type nonempty, LinkedNode.overlay_next nonempty]
    exact ⟨rfl, rightFits⟩
  case others =>
    intro id inChain isOther
    obtain ⟨notLeft, notRight⟩ := apart id (List.mem_cons_of_mem _ inChain)
    have place : (moved.release thread target).imageOf id = moved.remote (start.slist.nodes id).dataNode := by
      unfold imageOf
      rw [((nodes.others id (arranged.known inChain).ne).2.2 isOther).1, memory]
    rw [place, split.memory, Function.update_of_ne notRight, Function.update_of_ne notLeft]
    exact arranged.others_fields isMember thread l inChain

omit [Digest] in
theorem mem_last : target ∈ earlier ++ [target] := List.mem_append_right _ List.mem_cons_self

omit [Digest] in
theorem cases_last {fresh : NodeId} (inAfter : id ∈ earlier ++ [target, fresh]) :
    id = fresh ∨ id = target ∨ id ∈ earlier ++ [target] ∧ id ≠ target := by
  by_cases isTarget : id = target
  · exact Or.inr (Or.inl isTarget)
  · rcases List.mem_append.mp inAfter with isEarlier | isNew
    · exact Or.inr (Or.inr ⟨List.mem_append_left _ isEarlier, isTarget⟩)
    · rcases List.mem_cons.mp isNew with same | isNew
      · exact absurd same isTarget
      · exact Or.inl (List.mem_singleton.mp isNew)

namespace LastSplit

variable (split : LastSplit start after (earlier ++ [target]) target anchor l r)
variable (arranged : Arranged source start (earlier ++ [target])) (settled : Settled source after)
variable (bottom : after.slist.Bottom (earlier ++ [target, start.slist.count]))

include split arranged settled bottom

omit [Digest] in
/-- The chunks after the split are those before, but for two new ones. -/
theorem arranged_after : Arranged source after (earlier ++ [target, start.slist.count]) := by
  have nodes := split.nodes
  obtain ⟨leftNode, leftTyped⟩ := nodes.left
  obtain ⟨rightNode, rightTyped, _, _⟩ := nodes.right
  have place : ∀ id < after.slist.count, (after.slist.nodes id).dataNode =
      if id = start.slist.count then r else if id = target then l else (start.slist.nodes id).dataNode := by
    intro id _
    by_cases isNew : id = start.slist.count
    · rw [if_pos isNew, isNew, rightNode]
    · rw [if_neg isNew]
      by_cases isTarget : id = target
      · rw [if_pos isTarget, isTarget, leftNode]
      · rw [if_neg isTarget]
        exact ((nodes.others id isNew).2.2 isTarget).1
  have old : ∀ id < after.slist.count, id ≠ start.slist.count → id < start.slist.count := by
    intro id known notNew
    rw [nodes.count] at known
    exact lt_of_le_of_ne (Nat.lt_succ_iff.mp known) notNew
  have apart : ∀ id < start.slist.count, (start.slist.nodes id).dataNode ≠ l ∧
      (start.slist.nodes id).dataNode ≠ r := fun id known =>
    split.apart id ((arranged.bottom.mem_iff id).mpr known)
  constructor
  case settled => exact settled
  case bottom => exact bottom
  case front =>
    intro first isFirst
    have wasFirst : (earlier ++ [target]).head? = some first := by
      cases earlier with
      | nil => exact isFirst
      | cons other rest => exact isFirst
    have inChain : first ∈ earlier ++ [target] := List.mem_of_mem_head? wasFirst
    rw [(nodes.others first (arranged.known inChain).ne).2.1]
    exact arranged.front first wasFirst
  case separate =>
    intro first firstKnown second secondKnown differ
    rw [place first firstKnown, place second secondKnown]
    by_cases firstNew : first = start.slist.count
    · have secondOld : second ≠ start.slist.count := fun same => differ (firstNew.trans same.symm)
      rw [if_pos firstNew, if_neg secondOld]
      by_cases secondTarget : second = target
      · rw [if_pos secondTarget]
        exact split.differ.symm
      · rw [if_neg secondTarget]
        exact (apart second (old second secondKnown secondOld)).2.symm
    · rw [if_neg firstNew]
      have firstApart := apart first (old first firstKnown firstNew)
      by_cases secondNew : second = start.slist.count
      · rw [if_pos secondNew]
        split_ifs
        · exact split.differ
        · exact firstApart.2
      · rw [if_neg secondNew]
        by_cases firstTarget : first = target
        · have secondOther : second ≠ target := fun same => differ (firstTarget.trans same.symm)
          rw [if_pos firstTarget, if_neg secondOther]
          exact (apart second (old second secondKnown secondNew)).1.symm
        · rw [if_neg firstTarget]
          by_cases secondTarget : second = target
          · rw [if_pos secondTarget]
            exact firstApart.1
          · rw [if_neg secondTarget]
            exact arranged.separate first (old first firstKnown firstNew) second
              (old second secondKnown secondNew) differ
  case tag =>
    intro id inAfter
    rcases cases_last inAfter with isNew | isTarget | ⟨inChain, isOther⟩
    · rw [isNew, rightTyped]
      exact split.right.1
    · rw [isTarget, leftTyped]
      exact split.left.1
    · rw [((nodes.others id (arranged.known inChain).ne).2.2 isOther).2, ← arranged.tag id inChain]
      exact congrArg Prod.fst (split.others id inChain isOther)
  case fits =>
    intro id inAfter
    rcases cases_last inAfter with isNew | isTarget | ⟨inChain, isOther⟩
    · rw [isNew]
      exact split.right.2
    · rw [isTarget]
      exact split.left.2.1
    · have same := congrArg (fun fields => fields.2.1) (split.others id inChain isOther)
      exact le_of_eq_of_le same (arranged.fits id inChain)

omit [Digest] in
/-- Everything stays chained, but for the order of the anchors. -/
theorem nodesChained_iff (chained : NodesChained start) :
    NodesChained after ↔ start.slist.anchorOf target ≤ anchor := by
  have nodes := split.nodes
  have known := arranged.known mem_last
  have later := split.arranged_after arranged settled bottom
  obtain ⟨rightNode, _, rightAnchor, rightBackward⟩ := nodes.right
  have sameAnchor : ∀ id ∈ earlier ++ [target], after.slist.anchorOf id = start.slist.anchorOf id :=
    fun id inChain => (nodes.others id (arranged.known inChain).ne).1
  have newAnchor : after.slist.anchorOf start.slist.count = anchor := rightAnchor
  constructor
  · intro chainedAfter
    have sorted := chainedAfter.sorted
    rw [later.chain_eq, List.pairwise_append, List.pairwise_cons] at sorted
    have below := sorted.2.1.1 start.slist.count List.mem_cons_self
    rw [sameAnchor target mem_last, newAnchor] at below
    exact below
  · intro above
    have sorted := chained.sorted
    rw [arranged.chain_eq] at sorted
    -- every anchor is at most the target's
    have atMost : ∀ id ∈ earlier ++ [target], start.slist.anchorOf id ≤ anchor := by
      intro id inChain
      rcases List.mem_append.mp inChain with isEarlier | isTarget
      · exact ((List.pairwise_append.mp sorted).2.2 id isEarlier target List.mem_cons_self).trans above
      · rw [List.mem_singleton.mp isTarget]
        exact above
    have moveLast : earlier ++ [target, start.slist.count] = (earlier ++ [target]) ++ [start.slist.count] := by
      rw [List.append_assoc]
      rfl
    have linked := bottom.linked
    apply later.nodesChained
    · intro first isFirst second isNext
      rcases cases_last isFirst with isNew | isTarget | ⟨inChain, isOther⟩
      · rw [isNew, linked.suffix.2] at isNext
        cases isNext
      · rw [isTarget, linked.suffix.1] at isNext
        cases isNext
        rw [isTarget]
        exact ⟨rightBackward, split.left.2.2.trans rightNode.symm⟩
      · rw [split.forward, Linked.splice_of_ne isOther (arranged.known inChain).ne] at isNext
        have before := arranged.joined chained inChain isNext
        have secondOld := arranged.known (arranged.next_mem (List.mem_cons_of_mem _ inChain) isNext)
        obtain ⟨_, sameBackward, sameNode⟩ := nodes.others second secondOld.ne
        constructor
        · rw [sameBackward]
          exact before.backward
        · have link := congrArg (fun fields => fields.2.2) (split.others first inChain isOther)
          simp only [chainFields, arranged.pred_iff chained mem_last inChain, isNext, Option.some.injEq] at link
          rw [link]
          by_cases secondTarget : second = target
          · rw [if_pos secondTarget, secondTarget, nodes.left.1]
          · rw [if_neg secondTarget, (sameNode secondTarget).1]
            exact before.rlink
    · rw [moveLast, List.pairwise_append]
      refine ⟨sorted.imp_of_mem ?_, List.pairwise_singleton _ _, ?_⟩
      · intro first second isFirst isSecond below
        rw [sameAnchor first isFirst, sameAnchor second isSecond]
        exact below
      · intro first isFirst second isSecond
        rw [List.mem_singleton.mp isSecond, sameAnchor first isFirst, newAnchor]
        exact atMost first isFirst

end LastSplit

end Split

end Cluster.ComputeNode

end DiStore
