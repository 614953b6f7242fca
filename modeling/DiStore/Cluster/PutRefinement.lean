import DiStore.Cluster.ClientRun
import DiStore.Cluster.PutPaths

/-!
Contract: a put of the only client as an insertion into the store's map.

Owns: that the only client wins both locks, and that its put into a node of type 12, 14
or 16 keeps the store well formed and adds the record to its contents unless the key
has one.

Does not own: puts into nodes of type 10, whose new type is read off the fingerprints
(`Cluster.MorphCapacity`).
-/

set_option autoImplicit false

namespace DiStore.Cluster.ComputeNode

open DiStore.Concurrency DiStore.DataLayer DiStore.Library DiStore.Memory DiStore.SearchLayer

variable [Digest] {source : SegmentSource} {node : ComputeNode} {thread : ThreadId} {target : NodeId}
variable {earlier later : List NodeId}

/-- What a winner of `try_win_for_insert` has changed: two locks and its own context. -/
structure WonInsert (before won : ComputeNode) (thread : ThreadId) (target : NodeId) : Prop where
  moved : Moved before.slist won.slist target (before.slist.nodes target).dataNode
    (before.slist.nodes target).type
  heap : won.heap = before.heap
  remote : won.remote = before.remote
  remotePut : won.remotePut = before.remotePut
  requests : (won.contexts thread).requests = []

omit [Digest] in
/-- Where no lock is taken, the only client wins both of its locks. -/
theorem Idle.wins (idle : Idle node) (thread : ThreadId) (apart : node.backwardOf target ≠ target) :
    ∃ won, (node.drainPending thread).2.tryWinForInsert thread target = (true, won) ∧
      WonInsert node won thread target := by
  have isFree : ((((node.drainPending thread).2.setMaxDepth thread (-1)).setContextType thread
      .insert).slist.nodes target).ctx = none := idle.free target
  have samePred : ((((node.drainPending thread).2.setMaxDepth thread (-1)).setContextType thread
      .insert).setCtx target (some thread)).backwardOf target = node.backwardOf target := by
    change ((node.slist.setCtx target _).nodes target).backward.getD _ = _
    rw [SkipList.setCtx_backward]
    rfl
  have predFree : ((node.slist.setCtx target (some thread)).nodes (node.backwardOf target)).ctx = none := by
    rw [SkipList.setCtx_ctx, if_neg apart]
    exact idle.free _
  unfold ComputeNode.tryWinForInsert
  simp only
  rw [if_pos isFree, samePred]
  change ∃ won, (if ((node.slist.setCtx target (some thread)).nodes (node.backwardOf target)).ctx = none
    then _ else _) = (true, won) ∧ _
  rw [if_pos predFree]
  refine ⟨_, rfl, ?_, rfl, rfl, rfl, ?_⟩
  · have first := moved_setCtx node.slist target target (some thread)
    have second := moved_setCtx (node.slist.setCtx target (some thread)) target (node.backwardOf target)
      (some thread)
    have data := first.dataNode target
    have type := first.type target
    rw [if_pos rfl] at data type
    rw [data, type] at second
    exact first.trans second
  · simp [setMaxDepth, setCtx, setSlist, setContextType, drainPending, setRequests]

/-- A winner meets the same store. -/
theorem WonInsert.wellFormed {won : ComputeNode} (wonInsert : WonInsert node won thread target)
    (wellFormed : WellFormed source node) (divided : node.chain = earlier ++ target :: later) :
    WellFormed source won ∧ won.contents = node.contents ∧ won.chain = node.chain := by
  have isMember := mem_of_divided divided
  have sameData := wonInsert.moved.dataNode target
  have sameType := wonInsert.moved.type target
  rw [if_pos rfl] at sameData sameType
  have sameImage : won.imageOf target = node.imageOf target := by
    unfold imageOf
    rw [sameData, wonInsert.remote]
  have sameRegion : ∀ address, won.InRegion target address ↔ node.InRegion target address := by
    intro address
    unfold InRegion
    rw [sameData, sameType]
  have intact := wellFormed.intact target isMember
  have rebuilt : Rebuilt source node won target earlier [target] later := by
    apply wellFormed.rebuilt_moved divided wonInsert.moved
    · rw [wonInsert.heap]
      exact wellFormed.sound
    · rw [wonInsert.heap]
      exact fun _ reserved => reserved
    · intro address inRegion
      rw [wonInsert.heap]
      exact wellFormed.taken target (List.mem_cons_of_mem _ isMember) address
        ((sameRegion address).mp inRegion)
    · intro address inRegion
      exact Or.inl ((sameRegion address).mp inRegion)
    · intro searchNode _ _
      rw [wonInsert.remote]
      exact ⟨_, rfl⟩
    · constructor
      · rw [sameType]
        exact intact.isData
      · rw [sameImage, sameType]
        exact intact.tag
      · rw [sameImage, sameType]
        exact intact.fits
      · rw [sameImage]
        exact intact.marked
  obtain ⟨kept, contents⟩ := rebuilt.same wellFormed (by rw [sameImage])
  refine ⟨kept, contents, ?_⟩
  rw [rebuilt.chain_after, divided]
  rfl

/-- A put of the only client that is routed to a node of type 12, 14 or 16 inserts its
record into the map that the store stands for, on each of its paths. -/
theorem put_refines_insertion (wellFormed : WellFormed source node) (idle : Idle node)
    (remotePut : node.remotePut = true) (thread : ThreadId) (key value : Bytes16)
    (found : node.slist.fuzzySearch key.val = some target)
    (isLarge : (node.slist.nodes target).type = .type12 ∨ (node.slist.nodes target).type = .type14 ∨
      (node.slist.nodes target).type = .type16)
    (flush : FlushDraws) (draws : PutDraws) (writeDone : draws.write = .done)
    (batchDone : draws.batch = .done) :
    ∃ after, node.put source thread key.val value.val flush draws = (.returned true, after) ∧
      WellFormed source after ∧ Idle after ∧ after.remotePut = true ∧
      after.contents.Perm (addNew keyOf ⟨key, value⟩ node.contents) := by
  have isData : (node.slist.nodes target).type.IsData := by
    rcases isLarge with isTwelve | isFourteen | isSixteen
    · rw [isTwelve]
      trivial
    · rw [isFourteen]
      trivial
    · rw [isSixteen]
      trivial
  obtain ⟨earlier, later, divided, above, below⟩ := wellFormed.routed found isData
  have isMember := mem_of_divided divided
  obtain ⟨won, isWon, wonInsert⟩ := idle.wins thread (wellFormed.backwardOf_mem isMember).2
  obtain ⟨wonFormed, sameContents, sameChain⟩ := wonInsert.wellFormed wellFormed divided
  have sameAnchor : ∀ other, won.slist.anchorOf other = node.slist.anchorOf other := wonInsert.moved.anchor
  have sameType : (won.slist.nodes target).type = (node.slist.nodes target).type := by
    rw [wonInsert.moved.type, if_pos rfl]
  have wonAbove : won.slist.anchorOf target ≤ keyOf (⟨key, value⟩ : KV) := by
    rw [sameAnchor]
    exact above
  have wonBelow : ∀ other ∈ later, keyOf (⟨key, value⟩ : KV) < won.slist.anchorOf other := by
    intro other isLater
    rw [sameAnchor]
    exact below other isLater
  obtain ⟨after, returned, inserts, kept⟩ := putFor_inserts wonFormed (sameChain.trans divided) sameType
    wonAbove wonBelow wonInsert.requests isLarge writeDone batchDone
  have isPut : node.put source thread key.val value.val flush draws = (.returned true, after) := by
    unfold ComputeNode.put remotePutCall putDispatcher
    simp only [remotePut, if_true, found, if_pos isData, isWon, returned]
  refine ⟨after, isPut, inserts.wellFormed, idle.put isPut, ?_, ?_⟩
  · rw [kept, wonInsert.remotePut]
    exact remotePut
  · rw [← sameContents]
    exact inserts.contents

end DiStore.Cluster.ComputeNode

/-! ### A full node of type 16 -/

namespace DiStore.Cluster.ComputeNode

open DiStore.Concurrency DiStore.DataLayer DiStore.Library DiStore.Memory DiStore.SearchLayer

attribute [local instance] Digests.source

theorem crowded_chain : (crowded .type16 0).chain = [1] := by decide +kernel

theorem crowded_idle : Idle (crowded .type16 0) where
  closed := (SkipList.closed_empty 64).insert (Bytes16.fill 97).val 1024 .type16 1
  free := @SkipList.insert_ctx (SkipList.empty 64) (fun _ => rfl) (Bytes16.fill 97).val 1024 .type16 1
  queued _ isEntry := nomatch isEntry

theorem crowded_region {searchNode : NodeId}
    (isMember : searchNode ∈ SkipList.head :: (crowded .type16 0).chain) {address : Nat}
    (inRegion : (crowded .type16 0).InRegion searchNode address) :
    searchNode = SkipList.head ∧ address < 1024 ∨ searchNode = 1 ∧ 1024 ≤ address ∧ address < 4096 := by
  rw [crowded_chain] at isMember
  obtain ⟨lowest, highest⟩ := inRegion
  rcases List.mem_cons.mp isMember with isHead | isOne
  · rw [isHead] at highest
    change address < 64 + 64 at highest
    exact Or.inl ⟨isHead, by omega⟩
  · rw [List.mem_singleton.mp isOne] at lowest highest
    change 1024 ≤ address at lowest
    change address < 1024 + 560 at highest
    exact Or.inr ⟨List.mem_singleton.mp isOne, lowest, by omega⟩

theorem crowded_wellFormed : WellFormed (.memoryNode 0) (crowded .type16 0) where
  linked := ⟨_, ((SkipList.ordered_empty 64).insert _ _ _ Nat.one_pos).1⟩
  partitioned := by
    rw [cells, crowded_chain]
    refine ⟨fun cell isCell => ?_, List.pairwise_singleton _ _⟩
    rw [List.mem_singleton.mp isCell]
    exact ⟨by decide +kernel, by decide +kernel⟩
  intact := by
    rw [crowded_chain]
    intro searchNode isMember
    rw [List.mem_singleton.mp isMember]
    exact ⟨trivial, by decide +kernel, by decide +kernel, by decide +kernel⟩
  backward := by
    rw [crowded_chain]
    intro searchNode isMember
    rw [List.mem_singleton.mp isMember]
    exact ⟨SkipList.head, by decide +kernel, Or.inl rfl⟩
  headType := rfl
  headTag := Or.inl (by decide +kernel)
  apart left leftMember right rightMember differ address inLeft inRight := by
    have leftPlace := crowded_region leftMember inLeft
    have rightPlace := crowded_region rightMember inRight
    rcases leftPlace with ⟨leftHead, _⟩ | ⟨leftOne, _, _⟩
    · rcases rightPlace with ⟨rightHead, _⟩ | ⟨_, _, _⟩
      · exact differ (leftHead.trans rightHead.symm)
      · omega
    · rcases rightPlace with ⟨_, _⟩ | ⟨rightOne, _, _⟩
      · omega
      · exact differ (leftOne.trans rightOne.symm)
  sound := RemoteHeap.sound_empty _
  taken searchNode isMember address inRegion := by
    apply crowded_taken .type16 0
    change address < 4096
    rcases crowded_region isMember inRegion with ⟨_, _⟩ | ⟨_, _, _⟩
    · omega
    · assumption

/-- The put splits the node. -/
theorem full_put_inserts :
    ∃ after, (crowded .type16 0).put (.memoryNode 0) 0 (Bytes16.fill 120).val (Bytes16.fill 2).val
        ⟨⟨1, by decide⟩, ⟨1, by decide⟩, .done, .done⟩ writesDone = (.returned true, after) ∧
      WellFormed (.memoryNode 0) after ∧ Idle after ∧ after.remotePut = true ∧
      after.contents.Perm (addNew keyOf ⟨.fill 120, .fill 2⟩ (crowded .type16 0).contents) :=
  put_refines_insertion crowded_wellFormed crowded_idle rfl 0 (.fill 120) (.fill 2)
    (show (crowded .type16 0).slist.fuzzySearch (Bytes16.fill 120).val = some 1 by decide +kernel)
    (Or.inr (Or.inr rfl)) _ writesDone rfl rfl

end DiStore.Cluster.ComputeNode
