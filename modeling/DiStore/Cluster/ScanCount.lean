import DiStore.Cluster.PlanCapacity
import DiStore.Cluster.Scan
import DiStore.SearchLayer.PlainWalk
import Mathlib.Data.Finset.Card
import Mathlib.Data.List.Induction

/-!
Contract: what a range query counts, and when that is what is stored.

Owns: the count of one node (`qualifying`), the records that the loop counts for each
further pair of nodes (`counted`), when the loop returns, and the number of stored
keys from a key on.

Does not own: the values that a scan collects, which its caller never sees.
-/

set_option autoImplicit false

namespace DiStore.DataLayer.LinkedNode

variable {node : LinkedNode} {key : Str}

/-- The records of a node from a key on. -/
def qualifying (node : LinkedNode) (key : Str) : Nat :=
  node.records.countP fun pair => key ≤ pair.key.val

/-- `scan` counts the records from the key on, up to `ct`. -/
theorem scan_fst (node : LinkedNode) (key : Str) (ct : Nat) (ret : List Bytes16) :
    (node.scan key ct ret).1 = min ct (node.qualifying key) := by
  unfold scan
  rw [node.foldl_scanSlot key ct _ _ (Nat.zero_le ct), qualifying, records, List.countP_eq_length_filter, Nat.zero_add]

theorem qualifying_overlay {size : Nat} {source target : LinkedNode}
    (covered : pairsOffset + 32 * source.next ≤ size) :
    (overlay size source target).qualifying key = source.qualifying key := by
  unfold qualifying
  rw [records_overlay covered]

end DiStore.DataLayer.LinkedNode

namespace DiStore.Cluster

open DiStore.Concurrency DiStore.DataLayer DiStore.Library DiStore.Memory DiStore.SearchLayer

theorem sizeofNode_le_sixteen (type : LinkedNodeType) : sizeofNode type ≤ sizeofNode .type16 := by
  cases type <;> decide

/-! ### The loop -/

namespace ComputeNode

/-- What `fetch_two_async` leaves in the first slot: the right node, cut to the size of the
left one. -/
def pairCopy (node : ComputeNode) (slot : LinkedNode) (left right : NodeId) : LinkedNode :=
  let size := sizeofNode (node.slist.nodes left).type
  LinkedNode.overlay size (node.imageOf right) (LinkedNode.overlay size (node.imageOf left) slot)

/-- The records that the loop counts for the first `pairs` pairs of the nodes ahead: those
of each copy, and every time those of the node that stays in the second slot. -/
def counted (node : ComputeNode) (key : Str) (second : Nat) : Nat → List NodeId → LinkedNode → Nat
  | pairs + 1, left :: right :: rest, slot =>
      (node.pairCopy slot left right).qualifying key + second +
        counted node key second pairs rest (node.pairCopy slot left right)
  | _, _, _ => 0

@[simp] theorem counted_zero (node : ComputeNode) (key : Str) (second : Nat) (rest : List NodeId)
    (slot : LinkedNode) : node.counted key second 0 rest slot = 0 := by
  simp [counted]

end ComputeNode

/-- What holds of the loop whenever it starts over. -/
structure Looping (start : ComputeNode) (thread : ThreadId) (key : Str) (count second : Nat)
    (state : ScanState) : Prop where
  slist : state.node.slist = start.slist
  remote : state.node.remote = start.remote
  stays : (state.node.buffers thread 1).qualifying key = second
  drained : state.rdma = none ∨ state.rdma = some 0
  within : state.total ≤ count

/-- The records in the two nodes that the loop has fetched and not yet scanned. -/
def ScanState.waiting (state : ScanState) (key : Str) : Nat :=
  (state.r state.flip).qualifying key + (state.l state.flip).qualifying key

/-- All that the loop counts from here on, if it gets to the end of the chain. -/
def ScanState.ahead (state : ScanState) (start : ComputeNode) (thread : ThreadId) (key : Str) (second : Nat)
    (rest : List NodeId) : Nat :=
  state.total + state.waiting key +
    start.counted key second ((rest.length - 1) / 2) rest (state.node.buffers thread 0)

variable {start : ComputeNode} {thread : ThreadId} {key : Str} {count second : Nat} {state : ScanState}

theorem ScanState.scanBoth_total (within : state.total ≤ count) :
    (state.scanBoth key count).total = min count (state.total + state.waiting key) := by
  unfold scanBoth waiting
  simp only [LinkedNode.scan_fst]
  omega

theorem Looping.poll (looping : Looping start thread key count second state) :
    state.pollFetchTwoAsync thread = .error .nullContext ∨
      state.pollFetchTwoAsync thread = .error .stuck := by
  unfold ScanState.pollFetchTwoAsync
  rcases looping.drained with isNull | isDrained
  · rw [isNull]
    exact Or.inl rfl
  · rw [isDrained]
    exact Or.inr rfl

/-- A whole round of the loop: the pair ahead is fetched, the pair before it scanned. -/
def ScanState.round (state : ScanState) (thread : ThreadId) (key : Str) (count : Nat)
    (first next : NodeId) : ScanState :=
  let state := (state.fetchTwoAsync thread first next).scanBoth key count
  { state with
    flip := 1 - state.flip
    r := Function.update state.r (1 - state.flip) (state.node.buffers thread 0)
    l := Function.update state.l (1 - state.flip) (state.node.buffers thread 1)
    rdma := some 0 }

theorem scanLoop_round {fuel : Nat} {last first next : NodeId} {state : ScanState}
    (ahead : state.node.slist.forward 0 last = some first)
    (more : state.node.slist.forward 0 first = some next) :
    scanLoop thread key count (fuel + 1) last state =
      if (state.round thread key count first next).total < count then
        scanLoop thread key count fuel next (state.round thread key count first next)
      else (.returned (state.round thread key count first next).total,
        (state.round thread key count first next).node) := by
  rw [scanLoop]
  simp only [ahead, more]
  rfl

section Round

variable {first next : NodeId}

theorem ScanState.round_total (within : state.total ≤ count) :
    (state.round thread key count first next).total = min count (state.total + state.waiting key) :=
  @scanBoth_total key count (state.fetchTwoAsync thread first next) within

theorem ScanState.round_node : (state.round thread key count first next).node =
    (state.fetchTwoAsync thread first next).node := rfl

/-- The first slot after a round. -/
theorem Looping.round_slot (looping : Looping start thread key count second state) :
    (state.round thread key count first next).node.buffers thread 0 =
      start.pairCopy (state.node.buffers thread 0) first next := by
  rw [ScanState.round_node]
  unfold ScanState.fetchTwoAsync ComputeNode.pairCopy ComputeNode.imageOf
  simp [ComputeNode.read, ComputeNode.setSlot, looping.slist, looping.remote]

theorem Looping.round (looping : Looping start thread key count second state) :
    Looping start thread key count second (state.round thread key count first next) where
  slist := looping.slist
  remote := looping.remote
  stays := by
    rw [ScanState.round_node]
    unfold ScanState.fetchTwoAsync
    simp [ComputeNode.read, ComputeNode.setSlot, looping.stays]
  drained := Or.inr rfl
  within := by
    rw [ScanState.round_total looping.within]
    exact min_le_left _ _

/-- What waits after a round: the new copy, and the node that stays in the second slot. -/
theorem Looping.round_waiting (looping : Looping start thread key count second state) :
    (state.round thread key count first next).waiting key =
      (start.pairCopy (state.node.buffers thread 0) first next).qualifying key + second := by
  have after : Looping start thread key count second (state.round thread key count first next) :=
    looping.round
  have right : (state.round thread key count first next).r (state.round thread key count first next).flip =
      (state.round thread key count first next).node.buffers thread 0 := Function.update_self _ _ _
  have left : (state.round thread key count first next).l (state.round thread key count first next).flip =
      (state.round thread key count first next).node.buffers thread 1 := Function.update_self _ _ _
  unfold ScanState.waiting
  rw [right, left, looping.round_slot, after.stays]

end Round

theorem ScanState.ahead_short {rest : List NodeId} (short : rest.length < 3) :
    state.ahead start thread key second rest = state.total + state.waiting key := by
  have pairs : (rest.length - 1) / 2 = 0 := by omega
  rw [ahead, pairs, ComputeNode.counted_zero, Nat.add_zero]

theorem Looping.ahead_round (looping : Looping start thread key count second state)
    {first next : NodeId} {rest : List NodeId} (some : rest ≠ [])
    (goesOn : state.total + state.waiting key < count) :
    state.ahead start thread key second (first :: next :: rest) =
      (state.round thread key count first next).ahead start thread key second rest := by
  have roundTotal := @ScanState.round_total thread key count state first next looping.within
  have pairs : ((first :: next :: rest).length - 1) / 2 = (rest.length - 1) / 2 + 1 := by
    have positive := List.length_pos_iff.mpr some
    simp only [List.length_cons]
    omega
  unfold ScanState.ahead
  rw [pairs, looping.round_waiting, looping.round_slot, roundTotal, min_eq_right goesOn.le]
  exact (Nat.add_assoc _ _ _).symm

/-- The loop returns unless it comes to the end of the chain behind a whole pair; what it
returns leaves out a last single node. -/
theorem scanLoop_returned_iff {rest : List NodeId} {fuel : Nat} {last : NodeId}
    (looping : Looping start thread key count second state)
    (linked : Linked (start.slist.forward 0) last rest) (enough : rest.length < fuel) (total : Nat) :
    (scanLoop thread key count fuel last state).1 = .returned total ↔
      (rest.length % 2 = 1 ∨ rest ≠ [] ∧ count ≤ state.ahead start thread key second rest) ∧
        total = min count (state.ahead start thread key second rest) := by
  induction rest using List.twoStepInduction generalizing last state fuel with
  | nil =>
      obtain ⟨fuel, rfl⟩ : ∃ smaller, fuel = smaller + 1 := ⟨fuel - 1, by omega⟩
      have stop : state.node.slist.forward 0 last = none := by
        rw [looping.slist]
        exact linked
      apply iff_of_false
      · rw [scanLoop]
        simp only [stop]
        rcases looping.poll with isNull | isStuck
        · rw [isNull]
          intro returned
          cases returned
        · rw [isStuck]
          intro returned
          cases returned
      · rintro ⟨odd | ⟨some, _⟩, _⟩
        · exact absurd odd (by decide)
        · exact some rfl
  | singleton only =>
      obtain ⟨fuel, rfl⟩ : ∃ smaller, fuel = smaller + 1 := ⟨fuel - 1, by omega⟩
      have first : state.node.slist.forward 0 last = some only := by
        rw [looping.slist]
        exact linked.1
      have stop : state.node.slist.forward 0 only = none := by
        rw [looping.slist]
        exact linked.2
      rw [scanLoop]
      simp only [first, stop]
      rw [ScanState.scanBoth_total looping.within, ScanState.ahead_short (by simp), ScanEnd.returned.injEq]
      exact ⟨fun same => ⟨Or.inl rfl, same.symm⟩, fun both => both.2.symm⟩
  | cons_cons first next rest ih _ =>
      obtain ⟨fuel, rfl⟩ : ∃ smaller, fuel = smaller + 1 := ⟨fuel - 1, by omega⟩
      have ahead : state.node.slist.forward 0 last = some first := by
        rw [looping.slist]
        exact linked.1
      have more : state.node.slist.forward 0 first = some next := by
        rw [looping.slist]
        exact linked.2.1
      have parity : (first :: next :: rest).length % 2 = rest.length % 2 := by
        rw [List.length_cons, List.length_cons]
        omega
      have roundTotal := @ScanState.round_total thread key count state first next looping.within
      rw [scanLoop_round ahead more, parity]
      by_cases goesOn : state.total + state.waiting key < count
      · have short : (state.round thread key count first next).total < count := by omega
        rw [if_pos short, ih looping.round linked.2.2 (by simp at enough; omega)]
        by_cases isNil : rest = []
        · -- the round's pair is the last one; the next round ends badly
          subst isNil
          rw [ScanState.ahead_short (show [first, next].length < 3 from Nat.lt_succ_self 2)]
          apply iff_of_false
          · rintro ⟨odd | ⟨some, _⟩, _⟩
            · exact absurd odd (by decide)
            · exact some rfl
          · rintro ⟨odd | ⟨_, large⟩, _⟩
            · exact absurd odd (by decide)
            · omega
        · rw [looping.ahead_round isNil goesOn]
          simp only [isNil, List.cons_ne_nil, ne_eq, not_false_eq_true, true_and]
      · have full : (state.round thread key count first next).total = count := by omega
        have large : count ≤ state.ahead start thread key second (first :: next :: rest) := by
          unfold ScanState.ahead
          omega
        rw [if_neg full.not_lt, full, min_eq_left large, ScanEnd.returned.injEq]
        exact ⟨fun same => ⟨Or.inr ⟨List.cons_ne_nil _ _, large⟩, same.symm⟩, fun both => both.2.symm⟩

/-! ### What is stored -/

namespace ComputeNode

/-- Every stored key that is not below `key`. -/
def storedFrom (node : ComputeNode) (key : Str) : Finset Bytes16 :=
  ((node.slist.levelChain 0).flatMap fun searchNode =>
    (node.imageOf searchNode).records.map KV.key).toFinset.filter fun stored => key ≤ stored.val

/-- The node that `fuzzy_search` finds, and those behind it. -/
def nodesFrom (node : ComputeNode) (key : Str) : List NodeId :=
  match node.slist.fuzzySearch key with
  | none => []
  | some first => first :: follow (node.slist.forward 0) node.slist.count first

/-- All that a scan counts, if it gets to the end of the chain: the first two nodes, and
what the loop counts for the pairs behind them but for the last nodes. -/
def scanned (node : ComputeNode) (thread : ThreadId) (key : Str) (first second : NodeId)
    (rest : List NodeId) : Nat :=
  (node.imageOf second).qualifying key + (node.imageOf first).qualifying key +
    node.counted key ((node.imageOf second).qualifying key) ((rest.length - 1) / 2) rest
      (LinkedNode.overlay (sizeofNode (node.slist.nodes first).type) (node.imageOf first)
        (node.buffers thread 0))

/-- The node found is the last one. Or at least one node follows the first two, the scan
is over before it has to wait for a pair that does not exist, and it counts as much as
is stored. -/
def CountsAll (node : ComputeNode) (thread : ThreadId) (key : Str) (count : Nat) : Prop :=
  match node.nodesFrom key with
  | first :: second :: rest =>
      (rest.length % 2 = 1 ∨ rest ≠ [] ∧ count ≤ node.scanned thread key first second rest) ∧
        min count (node.scanned thread key first second rest) = min count (node.storedFrom key).card
  | _ => True

/-- No call is in progress: the anchors increase, and each data node holds distinct keys,
as many as its type allows at most, which lie below the later anchors. -/
structure Quiescent (node : ComputeNode) (levels : Nat → List NodeId) : Prop where
  ordered : node.slist.Ordered levels
  strict : StrictlySortedBy node.slist.anchorOf (levels 0)
  isData : ∀ searchNode ∈ levels 0, (node.slist.nodes searchNode).type.IsData
  fits : ∀ searchNode ∈ levels 0,
    (node.imageOf searchNode).next ≤ (node.slist.nodes searchNode).type.capacity
  distinct : ∀ searchNode ∈ levels 0, (node.imageOf searchNode).DistinctKeys
  below : (levels 0).Pairwise fun earlier later =>
    ∀ stored : Bytes16, (node.imageOf earlier).Holds stored → stored.val < node.slist.anchorOf later

/-- The loop starts with the first two nodes in the buffer. -/
theorem scanStart_looping (node : ComputeNode) (thread : ThreadId) (key : Str) (count : Nat)
    (first second : NodeId) :
    Looping node thread key count
      ((LinkedNode.overlay (sizeofNode (node.slist.nodes second).type) (node.imageOf second)
        (node.buffers thread 1)).qualifying key) (scanStart thread node first second) where
  slist := rfl
  remote := rfl
  stays := by simp [scanStart, read, setSlot, imageOf]
  drained := Or.inl rfl
  within := Nat.zero_le count

theorem scanStart_ahead (node : ComputeNode) (thread : ThreadId) (key : Str) (first second : NodeId)
    (rest : List NodeId) (stays : Nat) :
    (scanStart thread node first second).ahead node thread key stays rest =
      (LinkedNode.overlay (sizeofNode (node.slist.nodes second).type) (node.imageOf second)
          (node.buffers thread 1)).qualifying key +
        (LinkedNode.overlay (sizeofNode (node.slist.nodes first).type) (node.imageOf first)
          (node.buffers thread 0)).qualifying key +
        node.counted key stays ((rest.length - 1) / 2) rest
          (LinkedNode.overlay (sizeofNode (node.slist.nodes first).type) (node.imageOf first)
            (node.buffers thread 0)) := by
  simp [ScanState.ahead, ScanState.waiting, scanStart, read, setSlot, imageOf]

variable {node : ComputeNode} {levels : Nat → List NodeId}

/-- Where a scan starts: all earlier nodes hold smaller keys, and later anchors are larger. -/
theorem Quiescent.found (quiescent : Quiescent node levels) {key : Str}
    (reaches : ∃ searchNode ∈ levels 0, node.slist.anchorOf searchNode ≤ key) :
    ∃ before first rest, levels 0 = before ++ first :: rest ∧
      node.slist.fuzzySearch key = some first ∧ Linked (node.slist.forward 0) first rest ∧
      node.nodesFrom key = first :: rest ∧
      (∀ earlier ∈ before, ∀ stored : Bytes16, (node.imageOf earlier).Holds stored → stored.val < key) ∧
      ∀ later ∈ rest, key < node.slist.anchorOf later := by
  obtain ⟨low, lowIn, lowLe⟩ := reaches
  have isRoute := quiescent.ordered.fuzzySearch_eq key
  rcases route_spec SkipList.head key quiescent.strict.sorted with ⟨_, allAbove⟩ | ⟨inChain, notAbove, largest⟩
  · exact absurd lowLe (not_le.mpr (allAbove low lowIn))
  · generalize route node.slist.anchorOf SkipList.head (levels 0) key = first at *
    obtain ⟨before, rest, split⟩ := List.append_of_mem inChain
    have linked := quiescent.ordered.linked 0
    have count := quiescent.ordered.length_le 0
    have strict := quiescent.strict
    have below := quiescent.below
    rw [split] at linked count strict below
    have short : rest.length ≤ node.slist.count := by
      simp at count
      omega
    refine ⟨before, first, rest, split, isRoute, linked.suffix, ?_, ?_, ?_⟩
    · unfold nodesFrom
      simp only [isRoute]
      rw [follow_eq linked.suffix short]
    · intro earlier isEarlier stored holds
      have under := (List.pairwise_append.mp below).2.2 earlier isEarlier first List.mem_cons_self
      exact (under stored holds).trans_le notAbove
    · intro later isLater
      by_contra notBeyond
      have above := (List.pairwise_cons.mp (List.pairwise_append.mp strict).2.1).1 later isLater
      have inLevels : later ∈ levels 0 := by
        rw [split]
        exact List.mem_append_right _ (List.mem_cons_of_mem _ isLater)
      exact absurd (largest later inLevels (not_lt.mp notBeyond)) (not_le.mpr above)

/-- The last node holds all that is stored from the key on. -/
theorem Quiescent.storedFrom_last (quiescent : Quiescent node levels) {key : Str} {before : List NodeId}
    {first : NodeId} (split : levels 0 = before ++ [first])
    (earlier : ∀ searchNode ∈ before, ∀ stored : Bytes16, (node.imageOf searchNode).Holds stored →
      stored.val < key) :
    (node.storedFrom key).card = (node.imageOf first).qualifying key := by
  have inLevels : first ∈ levels 0 := by
    rw [split]
    exact List.mem_append_right _ List.mem_cons_self
  have distinct := LinkedNode.distinctKeys_iff_records.mp (quiescent.distinct first inLevels)
  have same : node.storedFrom key =
      (((node.imageOf first).records.map KV.key).filter fun stored => key ≤ stored.val).toFinset := by
    apply Finset.ext
    intro stored
    unfold storedFrom
    rw [quiescent.ordered.levelChain_eq, split]
    simp only [Finset.mem_filter, List.mem_toFinset, List.mem_flatMap, List.mem_append,
      List.mem_singleton, List.mem_filter, decide_eq_true_eq]
    constructor
    · rintro ⟨⟨searchNode, inBefore | isFirst, isStored⟩, notBelow⟩
      · obtain ⟨pair, isPair, isKey⟩ := List.mem_map.mp isStored
        have under := earlier searchNode inBefore stored
          (LinkedNode.holds_iff_records.mpr ⟨pair, isPair, isKey⟩)
        exact absurd notBelow (not_le.mpr under)
      · rw [isFirst] at isStored
        exact ⟨isStored, notBelow⟩
    · rintro ⟨isStored, notBelow⟩
      exact ⟨⟨first, Or.inr rfl, isStored⟩, notBelow⟩
  rw [same, List.toFinset_card_of_nodup (distinct.filter _), ← List.countP_eq_length_filter,
    List.countP_map, LinkedNode.qualifying]
  rfl

/-- A transfer of a data node carries over what it counts. -/
theorem Quiescent.qualifying_read (quiescent : Quiescent node levels) {searchNode : NodeId}
    (isMember : searchNode ∈ levels 0) {size : Nat}
    (large : sizeofNode (node.slist.nodes searchNode).type ≤ size) (slot : LinkedNode) (key : Str) :
    (LinkedNode.overlay size (node.imageOf searchNode) slot).qualifying key =
      (node.imageOf searchNode).qualifying key := by
  apply LinkedNode.qualifying_overlay
  have covered := pairsOffset_le_sizeofNode (quiescent.isData searchNode isMember)
  have fits := quiescent.fits searchNode isMember
  omega

/-- A scan returns the number of stored keys from its key on, or its count, exactly when
it counts them all. -/
theorem scan_counts_iff (quiescent : Quiescent node levels) (thread : ThreadId) (key : Bytes16)
    (count : Nat) (reaches : ∃ searchNode ∈ levels 0, node.slist.anchorOf searchNode ≤ key.val) :
    (node.scan thread key.val count).1 = .returned (min count (node.storedFrom key.val).card) ↔
      node.CountsAll thread key.val count := by
  obtain ⟨before, first, rest, split, isFirst, linked, ahead, earlier, later⟩ := quiescent.found reaches
  have inLevels : ∀ searchNode ∈ first :: rest, searchNode ∈ levels 0 := by
    intro searchNode isMember
    rw [split]
    exact List.mem_append_right _ isMember
  unfold scan CountsAll
  simp only [isFirst, ahead]
  cases rest with
  | nil =>
      have stop : node.slist.forward 0 first = none := linked
      have image : (node.fetchAs thread (node.slist.nodes first).dataNode).buffers thread 0 =
          LinkedNode.overlay (sizeofNode .type16) (node.imageOf first) (node.buffers thread 0) := by
        simp [fetchAs, read, setSlot, imageOf]
      simp only [stop, iff_true]
      rw [LinkedNode.scan_fst, image, quiescent.qualifying_read (inLevels first List.mem_cons_self)
        (sizeofNode_le_sixteen _), quiescent.storedFrom_last split earlier]
  | cons second rest =>
      have next : node.slist.forward 0 first = some second := linked.1
      simp only [next]
      rw [if_pos (later second List.mem_cons_self).le]
      have firstRead := quiescent.qualifying_read (inLevels first List.mem_cons_self) le_rfl
        (node.buffers thread 0) key.val
      have secondRead := quiescent.qualifying_read
        (inLevels second (List.mem_cons_of_mem _ List.mem_cons_self)) le_rfl (node.buffers thread 1) key.val
      have looping := node.scanStart_looping thread key.val count first second
      have isAhead := node.scanStart_ahead thread key.val first second rest
        ((node.imageOf second).qualifying key.val)
      have enough : rest.length < node.slist.count := by
        have bound := quiescent.ordered.length_le 0
        rw [split] at bound
        simp at bound
        omega
      rw [secondRead] at looping isAhead
      rw [firstRead] at isAhead
      rw [scanLoop_returned_iff looping linked.2 enough, isAhead]
      exact and_congr_right fun _ => eq_comm

end ComputeNode

end DiStore.Cluster

/-! ### Two nodes with concrete keys -/

namespace DiStore.Cluster.ComputeNode

open DiStore.Concurrency DiStore.DataLayer DiStore.Memory DiStore.SearchLayer

attribute [local instance] Digests.source

/-- Two search nodes with one record each, as after a flush. -/
def twoNodes : ComputeNode :=
  { crowded .type10 0 with
    slist := ((SkipList.empty 64).insert (Bytes16.fill 97).val 1024 .type10 1).insert
      (Bytes16.fill 98).val 2048 .type10 1
    remote := fun remote =>
      if remote = 1024 then (LinkedNode.fresh .type10 .zeroed).storeAll 10 (byteOffers 97 1)
      else if remote = 2048 then (LinkedNode.fresh .type10 .zeroed).storeAll 10 (byteOffers 98 1)
      else .zeroed }

theorem twoNodes_quiescent : ∃ levels, Quiescent twoNodes levels ∧ levels 0 = [1, 2] := by
  obtain ⟨levels, ordered, bottom, _⟩ := SkipList.insert_two_spec 64
    (show (Bytes16.fill 97).val ≤ (Bytes16.fill 98).val by decide) 1024 2048 .type10 .type10 Nat.one_pos
    Nat.one_pos
  rw [if_neg (by decide)] at bottom
  refine ⟨levels, ⟨ordered, ?_, ?_, ?_, ?_, ?_⟩, bottom⟩
  · rw [bottom]
    exact List.pairwise_pair.mpr (by decide +kernel)
  · rw [bottom]
    decide +kernel
  · rw [bottom]
    decide +kernel
  · rw [bottom]
    intro searchNode isMember
    have single : (twoNodes.imageOf searchNode).next = 1 := by
      revert searchNode
      decide +kernel
    intro left leftBound right rightBound _
    omega
  · rw [bottom]
    apply List.pairwise_pair.mpr
    rintro stored ⟨index, bound, rfl⟩
    have single : (twoNodes.imageOf 1).next = 1 := by decide +kernel
    have first : index = 0 := by omega
    rw [first]
    decide +kernel

/-- From the last node a scan counts what is stored. -/
theorem scan_from_last_node : (twoNodes.scan 0 (Bytes16.fill 98).val 5).1 =
    .returned (min 5 (twoNodes.storedFrom (Bytes16.fill 98).val).card) := by
  obtain ⟨levels, quiescent, bottom⟩ := twoNodes_quiescent
  apply (scan_counts_iff quiescent 0 (.fill 98) 5 ⟨1, by rw [bottom]; decide, by decide +kernel⟩).mpr
  have last : twoNodes.nodesFrom (Bytes16.fill 98).val = [2] := by decide +kernel
  unfold CountsAll
  rw [last]
  trivial

/-- From the first of two nodes it polls through the null pointer. -/
theorem scan_of_two_nodes_fails :
    (∃ levels, Quiescent twoNodes levels ∧
        ∃ searchNode ∈ levels 0, twoNodes.slist.anchorOf searchNode ≤ (Bytes16.fill 97).val) ∧
      (twoNodes.scan 0 (Bytes16.fill 97).val 1).1 = .nullContext ∧
      (twoNodes.scan 0 (Bytes16.fill 97).val 1).1 ≠
        .returned (min 1 (twoNodes.storedFrom (Bytes16.fill 97).val).card) := by
  obtain ⟨levels, quiescent, bottom⟩ := twoNodes_quiescent
  have fails : (twoNodes.scan 0 (Bytes16.fill 97).val 1).1 = .nullContext := by decide +kernel
  refine ⟨⟨levels, quiescent, 1, by rw [bottom]; decide, by decide +kernel⟩, fails, ?_⟩
  rw [fails]
  intro same
  cases same

end DiStore.Cluster.ComputeNode
