import DiStore.Cluster.PlanCapacity
import DiStore.Library.RangeCells
import DiStore.SearchLayer.PlainWalk

/-!
Contract: well-formed states of a flushed store, and the map they stand for.

Owns: the contents of a store (`ComputeNode.contents`), the invariant
`ComputeNode.WellFormed`, where a search leads in such a state, and what a change of
one data node has to show to keep the invariant (`Rebuilt`).

Does not own: what a put does (`Cluster.PutRefinement`).
-/

set_option autoImplicit false

namespace DiStore.Cluster.ComputeNode

open DiStore.Concurrency DiStore.DataLayer DiStore.Library DiStore.Memory DiStore.SearchLayer

/-- A record's key, in the order of the anchors. -/
abbrev keyOf (pair : KV) : Str := pair.key.val

section Contents

variable (node : ComputeNode)

/-- The data nodes, in the order of the bottom level. -/
def chain : List NodeId := node.slist.levelChain 0

/-- A data node as its anchor and the records of its remote image. -/
def cellOf (searchNode : NodeId) : Cell Str KV :=
  ⟨node.slist.anchorOf searchNode, (node.imageOf searchNode).records⟩

def cells : List (Cell Str KV) := node.chain.map node.cellOf

/-- The key-value contents of the store. -/
def contents : List KV := contentsOf node.cells

/-- An address of the chunk of a search node. -/
def InRegion (searchNode : NodeId) (address : Nat) : Prop :=
  (node.slist.nodes searchNode).dataNode ≤ address ∧
    address < (node.slist.nodes searchNode).dataNode + sizeofNode (node.slist.nodes searchNode).type

end Contents

section Invariant

variable [Digest]

/-- The image of a data node has the node's type, no more records than fit, and the
fingerprints of its keys. -/
structure Intact (node : ComputeNode) (searchNode : NodeId) : Prop where
  isData : (node.slist.nodes searchNode).type.IsData
  tag : (node.imageOf searchNode).type = (node.slist.nodes searchNode).type
  fits : (node.imageOf searchNode).next ≤ (node.slist.nodes searchNode).type.capacity
  marked : (node.imageOf searchNode).Fingerprinted

/-- The states between two calls after the flush. Since anchors strictly increase, the
nodes before another one are those with smaller anchors. -/
structure WellFormed (source : SegmentSource) (node : ComputeNode) : Prop where
  linked : ∃ levels, node.slist.Ordered levels
  partitioned : Partitioned keyOf node.cells
  intact : ∀ searchNode ∈ node.chain, node.Intact searchNode
  backward : ∀ searchNode ∈ node.chain, ∃ pred, (node.slist.nodes searchNode).backward = some pred ∧
    (pred = SkipList.head ∨
      pred ∈ node.chain ∧ node.slist.anchorOf pred < node.slist.anchorOf searchNode)
  headType : (node.slist.nodes SkipList.head).type = .typeHead
  headTag : (node.imageOf SkipList.head).type = .notSet ∨ (node.imageOf SkipList.head).type = .typeHead
  apart : ∀ left ∈ SkipList.head :: node.chain, ∀ right ∈ SkipList.head :: node.chain, left ≠ right →
    ∀ address, node.InRegion left address → ¬ node.InRegion right address
  /-- chunks yet to be allocated are fresh -/
  sound : RemoteHeap.Sound source node.heap
  taken : ∀ searchNode ∈ SkipList.head :: node.chain, ∀ address, node.InRegion searchNode address →
    ¬ RemoteHeap.Reserve source node.heap address

end Invariant

variable {source : SegmentSource} {node before after : ComputeNode} {target searchNode : NodeId}

/-! ### The chain -/

theorem chain_of_ordered {levels : Nat → List NodeId} (ordered : node.slist.Ordered levels) :
    node.chain = levels 0 := ordered.levelChain_eq 0

theorem mem_of_divided {earlier later : List NodeId} (divided : node.chain = earlier ++ target :: later) :
    target ∈ node.chain := by
  rw [divided]
  exact List.mem_append_right _ List.mem_cons_self

namespace WellFormed

variable [Digest] (wellFormed : WellFormed source node)

include wellFormed

theorem nodup : (SkipList.head :: node.chain).Nodup := by
  obtain ⟨levels, ordered⟩ := wellFormed.linked
  rw [chain_of_ordered ordered]
  exact ordered.nodup 0

theorem known (isMember : searchNode ∈ SkipList.head :: node.chain) :
    searchNode < node.slist.count := by
  obtain ⟨levels, ordered⟩ := wellFormed.linked
  rw [chain_of_ordered ordered] at isMember
  exact ordered.known 0 searchNode isMember

theorem ne_head (isMember : searchNode ∈ node.chain) : searchNode ≠ SkipList.head := by
  intro isHead
  rw [isHead] at isMember
  exact (List.nodup_cons.mp wellFormed.nodup).1 isMember

/-- No chunk of the store is empty. -/
theorem inRegion_dataNode (isMember : searchNode ∈ SkipList.head :: node.chain) :
    node.InRegion searchNode (node.slist.nodes searchNode).dataNode := by
  have positive : 0 < sizeofNode (node.slist.nodes searchNode).type := by
    rcases List.mem_cons.mp isMember with isHead | inChain
    · rw [isHead, wellFormed.headType]
      decide
    · exact Nat.pos_of_ne_zero (sizeofNode_ne_zero (wellFormed.intact searchNode inChain).isData)
  exact ⟨le_rfl, Nat.lt_add_of_pos_right positive⟩

theorem dataNode_ne {other : NodeId} (isMember : searchNode ∈ SkipList.head :: node.chain)
    (otherMember : other ∈ SkipList.head :: node.chain) (differ : searchNode ≠ other) :
    (node.slist.nodes searchNode).dataNode ≠ (node.slist.nodes other).dataNode := by
  intro same
  have inOther := wellFormed.inRegion_dataNode otherMember
  rw [← same] at inOther
  exact wellFormed.apart searchNode isMember other otherMember differ _
    (wellFormed.inRegion_dataNode isMember) inOther

theorem dataNode_taken (isMember : searchNode ∈ SkipList.head :: node.chain) :
    ¬ RemoteHeap.Reserve source node.heap (node.slist.nodes searchNode).dataNode :=
  wellFormed.taken searchNode isMember _ (wellFormed.inRegion_dataNode isMember)

/-- The node a data node points back to. -/
theorem backwardOf_mem (isMember : target ∈ node.chain) :
    node.backwardOf target ∈ SkipList.head :: node.chain ∧ node.backwardOf target ≠ target := by
  obtain ⟨pred, isPred, place⟩ := wellFormed.backward target isMember
  have same : node.backwardOf target = pred := by
    unfold backwardOf
    rw [isPred]
    rfl
  rw [same]
  rcases place with isHead | ⟨inChain, below⟩
  · rw [isHead]
    exact ⟨List.mem_cons_self, (wellFormed.ne_head isMember).symm⟩
  · refine ⟨List.mem_cons_of_mem _ inChain, fun isTarget => ?_⟩
    rw [isTarget] at below
    exact lt_irrefl _ below

/-! ### Where a search leads -/

/-- A key that is routed to a data node belongs there: the nodes around it divide the
chain, and the next anchors are above the key. -/
theorem routed {key : Str} (found : node.slist.fuzzySearch key = some target)
    (isData : (node.slist.nodes target).type.IsData) :
    ∃ earlier later, node.chain = earlier ++ target :: later ∧
      node.slist.anchorOf target ≤ key ∧ ∀ other ∈ later, key < node.slist.anchorOf other := by
  obtain ⟨levels, ordered⟩ := wellFormed.linked
  have isChain : levels 0 = node.chain := (chain_of_ordered ordered).symm
  have isRoute := Option.some.inj ((ordered.fuzzySearch_eq key).symm.trans found)
  have spec := route_spec SkipList.head key (ordered.sorted 0)
  rw [isRoute, isChain] at spec
  rcases spec with ⟨isHead, _⟩ | ⟨inChain, atMost, largest⟩
  · rw [isHead, wellFormed.headType] at isData
    exact absurd isData id
  · obtain ⟨earlier, later, divided⟩ := List.append_of_mem inChain
    refine ⟨earlier, later, divided, atMost, fun other isLater => ?_⟩
    have before := wellFormed.partitioned.before
    rw [cells, divided, List.map_append, List.map_cons, List.pairwise_append, List.pairwise_cons] at before
    have above := (before.2.1.1 (node.cellOf other) (List.mem_map_of_mem isLater)).anchor
    by_contra notBelow
    have inOther : other ∈ node.chain := by
      rw [divided]
      exact List.mem_append_right _ (List.mem_cons_of_mem _ isLater)
    exact absurd above (not_lt.mpr (largest other inOther (not_lt.mp notBelow)))

end WellFormed

/-! ### Keeping the invariant -/

/-- A node that a step leaves alone but for the link of its image. -/
structure Kept (before after : ComputeNode) (searchNode : NodeId) : Prop where
  anchor : after.slist.anchorOf searchNode = before.slist.anchorOf searchNode
  dataNode : (after.slist.nodes searchNode).dataNode = (before.slist.nodes searchNode).dataNode
  type : (after.slist.nodes searchNode).type = (before.slist.nodes searchNode).type
  backward : (after.slist.nodes searchNode).backward = (before.slist.nodes searchNode).backward
  image : ∃ rlink, after.imageOf searchNode = { before.imageOf searchNode with rlink := rlink }

namespace Kept

variable (kept : Kept before after searchNode)

include kept

theorem cellOf : after.cellOf searchNode = before.cellOf searchNode := by
  obtain ⟨rlink, image⟩ := kept.image
  unfold ComputeNode.cellOf
  rw [kept.anchor, image]
  rfl

theorem imageType : (after.imageOf searchNode).type = (before.imageOf searchNode).type := by
  obtain ⟨rlink, image⟩ := kept.image
  rw [image]

theorem inRegion {address : Nat} : after.InRegion searchNode address ↔ before.InRegion searchNode address := by
  unfold InRegion
  rw [kept.dataNode, kept.type]

theorem intact [Digest] (intact : before.Intact searchNode) : after.Intact searchNode := by
  obtain ⟨rlink, image⟩ := kept.image
  constructor
  · rw [kept.type]
    exact intact.isData
  · rw [kept.type, image]
    exact intact.tag
  · rw [kept.type, image]
    exact intact.fits
  · rw [image]
    exact intact.marked

end Kept

/-- A step that puts the nodes `middle` in the place of `target`, which is one of them. -/
structure Rebuilt [Digest] (source : SegmentSource) (before after : ComputeNode) (target : NodeId)
    (earlier middle later : List NodeId) : Prop where
  divided : before.chain = earlier ++ target :: later
  linked : ∃ levels, after.slist.Ordered levels ∧ levels 0 = earlier ++ (middle ++ later)
  isTarget : target ∈ middle
  sameAnchor : after.slist.anchorOf target = before.slist.anchorOf target
  kept : ∀ searchNode ∈ SkipList.head :: before.chain, searchNode ≠ target → Kept before after searchNode
  intact : ∀ searchNode ∈ middle, after.Intact searchNode
  backward : ∀ searchNode ∈ middle, ∃ pred, (after.slist.nodes searchNode).backward = some pred ∧
    (pred = SkipList.head ∨
      pred ∈ before.chain ∧ before.slist.anchorOf pred < after.slist.anchorOf searchNode)
  sound : RemoteHeap.Sound source after.heap
  shrinks : ∀ address, RemoteHeap.Reserve source after.heap address →
    RemoteHeap.Reserve source before.heap address
  taken : ∀ searchNode ∈ middle, ∀ address, after.InRegion searchNode address →
    ¬ RemoteHeap.Reserve source after.heap address
  /-- a chunk is the old one of the target, or new -/
  origin : ∀ searchNode ∈ middle, ∀ address, after.InRegion searchNode address →
    before.InRegion target address ∨ RemoteHeap.Reserve source before.heap address
  inner : ∀ left ∈ middle, ∀ right ∈ middle, left ≠ right →
    ∀ address, after.InRegion left address → ¬ after.InRegion right address

namespace Rebuilt

variable [Digest] {earlier middle later : List NodeId}
variable (rebuilt : Rebuilt source before after target earlier middle later)

include rebuilt

theorem isMember : target ∈ before.chain := mem_of_divided rebuilt.divided

theorem chain_after : after.chain = earlier ++ (middle ++ later) := by
  obtain ⟨levels, ordered, isChain⟩ := rebuilt.linked
  rw [chain_of_ordered ordered, isChain]

/-- The nodes around the target. -/
theorem around (wellFormed : WellFormed source before) (isOuter : searchNode ∈ earlier ∨ searchNode ∈ later) :
    searchNode ∈ before.chain ∧ searchNode ≠ target := by
  have nodup := (List.nodup_cons.mp wellFormed.nodup).2
  rw [rebuilt.divided, List.nodup_append, List.nodup_cons] at nodup
  rw [rebuilt.divided, List.mem_append, List.mem_cons]
  rcases isOuter with isEarlier | isLater
  · exact ⟨Or.inl isEarlier, nodup.2.2 searchNode isEarlier target List.mem_cons_self⟩
  · refine ⟨Or.inr (Or.inr isLater), fun isTarget => ?_⟩
    rw [isTarget] at isLater
    exact nodup.2.1.1 isLater

theorem members (wellFormed : WellFormed source before) :
    searchNode ∈ after.chain ↔ searchNode ∈ middle ∨ searchNode ∈ before.chain ∧ searchNode ≠ target := by
  rw [rebuilt.chain_after, List.mem_append, List.mem_append]
  constructor
  · intro place
    rcases place with isEarlier | inMiddle | isLater
    · exact Or.inr (rebuilt.around wellFormed (Or.inl isEarlier))
    · exact Or.inl inMiddle
    · exact Or.inr (rebuilt.around wellFormed (Or.inr isLater))
  · intro place
    rcases place with inMiddle | ⟨inChain, isOther⟩
    · exact Or.inr (Or.inl inMiddle)
    · rw [rebuilt.divided, List.mem_append, List.mem_cons] at inChain
      rcases inChain with isEarlier | isTarget | isLater
      · exact Or.inl isEarlier
      · exact absurd isTarget isOther
      · exact Or.inr (Or.inr isLater)

theorem cells_before : before.cells =
    earlier.map before.cellOf ++ before.cellOf target :: later.map before.cellOf := by
  rw [cells, rebuilt.divided, List.map_append, List.map_cons]

theorem cells_after (wellFormed : WellFormed source before) : after.cells =
    earlier.map before.cellOf ++ (middle.map after.cellOf ++ later.map before.cellOf) := by
  have same : ∀ other, other ∈ earlier ∨ other ∈ later → after.cellOf other = before.cellOf other := by
    intro other isOuter
    obtain ⟨inChain, isOther⟩ := rebuilt.around wellFormed isOuter
    exact (rebuilt.kept other (List.mem_cons_of_mem _ inChain) isOther).cellOf
  have front : earlier.map after.cellOf = earlier.map before.cellOf :=
    List.map_congr_left fun other isEarlier => same other (Or.inl isEarlier)
  have back : later.map after.cellOf = later.map before.cellOf :=
    List.map_congr_left fun other isLater => same other (Or.inr isLater)
  rw [cells, rebuilt.chain_after, List.map_append, List.map_append, front, back]

/-- What is left to show is that the keys stay divided. -/
theorem wellFormed_after (wellFormed : WellFormed source before)
    (partitioned : Partitioned keyOf after.cells) : WellFormed source after := by
  have targetNotHead := wellFormed.ne_head rebuilt.isMember
  have headKept := rebuilt.kept SkipList.head List.mem_cons_self targetNotHead.symm
  have anchors : ∀ other ∈ before.chain, after.slist.anchorOf other = before.slist.anchorOf other := by
    intro other inChain
    by_cases same : other = target
    · rw [same]
      exact rebuilt.sameAnchor
    · exact (rebuilt.kept other (List.mem_cons_of_mem _ inChain) same).anchor
  have remain : ∀ other ∈ before.chain, other ∈ after.chain := by
    intro other inChain
    rw [rebuilt.members wellFormed]
    by_cases same : other = target
    · rw [same]
      exact Or.inl rebuilt.isTarget
    · exact Or.inr ⟨inChain, same⟩
  have cases : ∀ other ∈ SkipList.head :: after.chain,
      other ∈ middle ∨ other ∈ SkipList.head :: before.chain ∧ other ≠ target := by
    intro other inAfter
    rcases List.mem_cons.mp inAfter with isHead | inChain
    · rw [isHead]
      exact Or.inr ⟨List.mem_cons_self, targetNotHead.symm⟩
    · rcases (rebuilt.members wellFormed).mp inChain with inMiddle | ⟨inBefore, isOther⟩
      · exact Or.inl inMiddle
      · exact Or.inr ⟨List.mem_cons_of_mem _ inBefore, isOther⟩
  have smaller : ∀ {pred searchNode : NodeId}, pred = SkipList.head ∨
      pred ∈ before.chain ∧ before.slist.anchorOf pred < after.slist.anchorOf searchNode →
      pred = SkipList.head ∨
        pred ∈ after.chain ∧ after.slist.anchorOf pred < after.slist.anchorOf searchNode := by
    intro pred searchNode place
    rcases place with isHead | ⟨inChain, below⟩
    · exact Or.inl isHead
    · rw [← anchors pred inChain] at below
      exact Or.inr ⟨remain pred inChain, below⟩
  have outer : ∀ inner ∈ middle, ∀ other ∈ SkipList.head :: before.chain, other ≠ target →
      ∀ address, after.InRegion inner address → ¬ before.InRegion other address := by
    intro inner inMiddle other isOld isOther address inInner inOther
    rcases rebuilt.origin inner inMiddle address inInner with inTarget | reserved
    · exact wellFormed.apart target (List.mem_cons_of_mem _ rebuilt.isMember) other isOld isOther.symm
        address inTarget inOther
    · exact wellFormed.taken other isOld address inOther reserved
  constructor
  case linked =>
    obtain ⟨levels, ordered, _⟩ := rebuilt.linked
    exact ⟨levels, ordered⟩
  case partitioned => exact partitioned
  case intact =>
    intro searchNode inChain
    rcases (rebuilt.members wellFormed).mp inChain with inMiddle | ⟨inBefore, isOther⟩
    · exact rebuilt.intact searchNode inMiddle
    · exact (rebuilt.kept searchNode (List.mem_cons_of_mem _ inBefore) isOther).intact
        (wellFormed.intact searchNode inBefore)
  case backward =>
    intro searchNode inChain
    rcases (rebuilt.members wellFormed).mp inChain with inMiddle | ⟨inBefore, isOther⟩
    · obtain ⟨pred, isPred, place⟩ := rebuilt.backward searchNode inMiddle
      exact ⟨pred, isPred, smaller place⟩
    · obtain ⟨pred, isPred, place⟩ := wellFormed.backward searchNode inBefore
      have kept := rebuilt.kept searchNode (List.mem_cons_of_mem _ inBefore) isOther
      rw [← kept.anchor] at place
      exact ⟨pred, kept.backward.trans isPred, smaller place⟩
  case headType => exact headKept.type.trans wellFormed.headType
  case headTag =>
    rw [headKept.imageType]
    exact wellFormed.headTag
  case apart =>
    intro left leftMember right rightMember differ address inLeft inRight
    rcases cases left leftMember with leftMiddle | ⟨leftOld, leftOther⟩
    · rcases cases right rightMember with rightMiddle | ⟨rightOld, rightOther⟩
      · exact rebuilt.inner left leftMiddle right rightMiddle differ address inLeft inRight
      · rw [(rebuilt.kept right rightOld rightOther).inRegion] at inRight
        exact outer left leftMiddle right rightOld rightOther address inLeft inRight
    · rw [(rebuilt.kept left leftOld leftOther).inRegion] at inLeft
      rcases cases right rightMember with rightMiddle | ⟨rightOld, rightOther⟩
      · exact outer right rightMiddle left leftOld leftOther address inRight inLeft
      · rw [(rebuilt.kept right rightOld rightOther).inRegion] at inRight
        exact wellFormed.apart left leftOld right rightOld differ address inLeft inRight
  case sound => exact rebuilt.sound
  case taken =>
    intro searchNode inAfter address inRegion reserved
    rcases cases searchNode inAfter with inMiddle | ⟨isOld, isOther⟩
    · exact rebuilt.taken searchNode inMiddle address inRegion reserved
    · rw [(rebuilt.kept searchNode isOld isOther).inRegion] at inRegion
      exact wellFormed.taken searchNode isOld address inRegion (rebuilt.shrinks address reserved)

end Rebuilt

/-! ### Insertion of a record -/

/-- A step that keeps the store well formed and adds a record to its contents, unless the
key has one. -/
structure Inserts [Digest] (source : SegmentSource) (before after : ComputeNode) (pair : KV) : Prop where
  wellFormed : WellFormed source after
  contents : after.contents.Perm (addNew keyOf pair before.contents)

section Insertion

variable [Digest] {earlier later : List NodeId} {pair : KV} (wellFormed : WellFormed source before)

include wellFormed

/-- The cells with a record added to the node that a search for its key leads to. -/
theorem WellFormed.partitioned_added (divided : before.chain = earlier ++ target :: later)
    (above : before.slist.anchorOf target ≤ keyOf pair)
    (below : ∀ other ∈ later, keyOf pair < before.slist.anchorOf other) :
    Partitioned keyOf (earlier.map before.cellOf ++
        ⟨before.slist.anchorOf target, addNew keyOf pair (before.imageOf target).records⟩ ::
          later.map before.cellOf) ∧
      (contentsOf (earlier.map before.cellOf ++
        ⟨before.slist.anchorOf target, addNew keyOf pair (before.imageOf target).records⟩ ::
          later.map before.cellOf)).Perm (addNew keyOf pair before.contents) := by
  have partitioned := wellFormed.partitioned
  have isCells : before.cells = earlier.map before.cellOf ++
      ⟨before.slist.anchorOf target, (before.imageOf target).records⟩ :: later.map before.cellOf := by
    rw [cells, divided, List.map_append, List.map_cons]
    rfl
  rw [isCells] at partitioned
  have belowCells : ∀ cell ∈ later.map before.cellOf, keyOf pair < cell.anchor := by
    intro cell isCell
    obtain ⟨other, isLater, isOther⟩ := List.mem_map.mp isCell
    rw [← isOther]
    exact below other isLater
  unfold contents
  rw [isCells]
  exact ⟨partitioned.add above belowCells, partitioned.contentsOf_add above belowCells⟩

/-- The records stay as they are. -/
theorem Rebuilt.same (rebuilt : Rebuilt source before after target earlier [target] later)
    (records : (after.imageOf target).records = (before.imageOf target).records) :
    WellFormed source after ∧ after.contents = before.contents := by
  have isCell : after.cellOf target = before.cellOf target := by
    unfold cellOf
    rw [rebuilt.sameAnchor, records]
  have sameCells : after.cells = before.cells := by
    rw [rebuilt.cells_after wellFormed, rebuilt.cells_before, List.map_singleton, isCell]
    rfl
  refine ⟨rebuilt.wellFormed_after wellFormed ?_, ?_⟩
  · rw [sameCells]
    exact wellFormed.partitioned
  · unfold contents
    rw [sameCells]

/-- The record is added to the node itself. -/
theorem Rebuilt.adds (rebuilt : Rebuilt source before after target earlier [target] later)
    (above : before.slist.anchorOf target ≤ keyOf pair)
    (below : ∀ other ∈ later, keyOf pair < before.slist.anchorOf other)
    (records : (after.imageOf target).records = addNew keyOf pair (before.imageOf target).records) :
    Inserts source before after pair := by
  obtain ⟨partitioned, added⟩ := wellFormed.partitioned_added rebuilt.divided above below
  have isCells : after.cells = earlier.map before.cellOf ++
      ⟨before.slist.anchorOf target, addNew keyOf pair (before.imageOf target).records⟩ ::
        later.map before.cellOf := by
    rw [rebuilt.cells_after wellFormed, List.map_singleton, cellOf, rebuilt.sameAnchor, records]
    rfl
  constructor
  · apply rebuilt.wellFormed_after wellFormed
    rw [isCells]
    exact partitioned
  · unfold contents at added ⊢
    rw [isCells]
    exact added

/-- The node and a new one share its records and the added one. -/
theorem Rebuilt.divides {fresh : NodeId}
    (rebuilt : Rebuilt source before after target earlier [target, fresh] later)
    (above : before.slist.anchorOf target ≤ keyOf pair)
    (below : ∀ other ∈ later, keyOf pair < before.slist.anchorOf other)
    (perm : ((after.imageOf target).records ++ (after.imageOf fresh).records).Perm
      (addNew keyOf pair (before.imageOf target).records))
    (between : before.slist.anchorOf target < after.slist.anchorOf fresh)
    (next : ∀ other ∈ later, after.slist.anchorOf fresh < before.slist.anchorOf other)
    (low : ∀ held ∈ (after.imageOf target).records, keyOf held < after.slist.anchorOf fresh)
    (high : ∀ held ∈ (after.imageOf fresh).records, after.slist.anchorOf fresh ≤ keyOf held) :
    Inserts source before after pair := by
  obtain ⟨partitioned, added⟩ := wellFormed.partitioned_added rebuilt.divided above below
  have isCells : after.cells = earlier.map before.cellOf ++
      ⟨before.slist.anchorOf target, (after.imageOf target).records⟩ ::
        ⟨after.slist.anchorOf fresh, (after.imageOf fresh).records⟩ :: later.map before.cellOf := by
    rw [rebuilt.cells_after wellFormed, List.map_cons, List.map_singleton, cellOf, rebuilt.sameAnchor]
    rfl
  have nextCells : ∀ cell ∈ later.map before.cellOf, after.slist.anchorOf fresh < cell.anchor := by
    intro cell isCell
    obtain ⟨other, isLater, isOther⟩ := List.mem_map.mp isCell
    rw [← isOther]
    exact next other isLater
  constructor
  · apply rebuilt.wellFormed_after wellFormed
    rw [isCells]
    exact partitioned.divide perm between nextCells low high
  · unfold contents at added ⊢
    rw [isCells]
    exact (contentsOf_divide _ _ perm).trans added

end Insertion

end DiStore.Cluster.ComputeNode
