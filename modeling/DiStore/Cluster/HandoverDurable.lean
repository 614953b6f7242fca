import DiStore.Cluster.HandoverLoops

/-!
Contract: where the records of a handed-over queue are once the winner has released.

Owns: the images after each path of a put, which of them keeps every acknowledged record,
and exactly which states and queues lose one although every write is done.

Does not own: which requests reach the queue (`Cluster.LockMachine`), and failed
writes (`Cluster.WriteFailures`).
-/

set_option autoImplicit false

namespace DiStore.Cluster.ComputeNode

open DiStore.Concurrency DiStore.DataLayer DiStore.Memory DiStore.SearchLayer

variable [Digest] {source : SegmentSource} {node : ComputeNode} {thread : ThreadId} {target : NodeId}
variable {type : LinkedNodeType} {key value : Bytes16} {draws : PutDraws}

/-! ### In place -/

omit [Digest] in
theorem release_imageOf (node : ComputeNode) (thread : ThreadId) (target searchNode : NodeId) :
    (node.release thread target).imageOf searchNode = node.imageOf searchNode := by
  have moved := (release_moved node thread target).dataNode searchNode
  unfold imageOf
  rw [moved]
  change node.remote _ = _
  split
  next same => rw [same]
  next => rfl

omit [Digest] in
theorem release_resulting (before node : ComputeNode) (thread : ThreadId) (target : NodeId) :
    resulting before (node.release thread target) target = resulting before node target := by
  unfold resulting
  rw [(release_moved node thread target).count]

/-- Whom the loop served, and what the images are, when everything fits in place. -/
theorem putWon_inPlace_images (state : WinnerState source node target type)
    (isDone : draws.write = .done) (plan : Nat → PutPlan)
    (fits : node.FitsInPlace thread target key value type) :
    let outcome := node.putWon source thread target key.val value.val draws type plan
    let work := helpOthers type.capacity (node.slist.nodes target).anchor (node.fetchedPred thread target)
      ((node.fetchedReal thread target).store type.capacity key.val value.val).2
      (node.contexts thread).requests
    outcome.replies = work.replies ∧ work.requests = [] ∧
      (outcome.node.imageOf target).entries = work.real.entries ∧
      outcome.node.imageOf (node.backwardOf target) = node.imageOf (node.backwardOf target) ∧
      resulting node outcome.node target = [target] := by
  obtain ⟨room, served⟩ := (fitsInPlace_iff key value).mp fits
  have isWork := @firstWork_fetched _ thread target node key.val value.val type
  rw [putWon_inPlace key.val value.val plan room isDone isWork (isWork ▸ served)]
  rw [isWork] at served
  have bounds := LinkedNode.store_next_bounds (node.fetchedReal thread target) type.capacity key.val value.val
  have within := @serve_real_next_le _ _ (node.fetchedPred thread target)
    ((node.fetchedReal thread target).store type.capacity key.val value.val).2 type.capacity
    (node.slist.nodes target).anchor (node.contexts thread).requests helpAnswer_truthful
  simp only
  rw [release_imageOf, release_imageOf, release_resulting]
  unfold helpOthers at served ⊢
  generalize serve helpAnswer type.capacity (node.slist.nodes target).anchor
    (node.fetchedPred thread target)
    ((node.fetchedReal thread target).store type.capacity key.val value.val).2
    (node.contexts thread).requests = work at served within ⊢
  refine ⟨trivial, served, ?_, ?_, ?_⟩
  · have covered := pairsOffset_le_sizeofNode state.isData
    have image : (((node.fetchTwo thread target).staged thread work.pred work.real []).write thread
        (node.slist.nodes target).dataNode (sizeofNode type) 1 .done).imageOf target =
          LinkedNode.overlay (sizeofNode type) work.real (node.imageOf target) := by
      change Function.update _ (node.slist.nodes target).dataNode _ (node.slist.nodes target).dataNode = _
      rw [Function.update_self]
      simp [staged, setSlot, setRequests]
      rfl
    rw [image, LinkedNode.entries_overlay]
    omega
  · change (Function.update _ _ _) _ = _
    exact Function.update_of_ne state.apart.symm _ _
  · change [target] ++ List.range' _ (node.slist.count - node.slist.count) = _
    rw [Nat.sub_self]
    rfl

/-- In place, a request for the predecessor is durable only if it was there before: the
first slot is not written back. -/
theorem inPlace_durable_iff (state : WinnerState source node target type)
    (ownAbove : ¬ key.val < (node.slist.nodes target).anchor) (isDone : draws.write = .done)
    (plan : Nat → PutPlan) (fits : node.FitsInPlace thread target key value type) :
    Durable node target key (node.putWon source thread target key.val value.val draws type plan) ↔
      (node.PredRoom thread target → ∀ request ∈ (node.contexts thread).requests,
        request.tag.val < (node.slist.nodes target).anchor →
          ((node.imageOf (node.backwardOf target)).find request.tag.val).isSome) := by
  obtain ⟨replies, served, realImage, predImage, only⟩ :=
    @putWon_inPlace_images _ source node thread target type key value draws state isDone plan fits
  have room : (node.fetchedReal thread target).next < type.capacity := fits.1
  have stored : ((node.fetchedReal thread target).store type.capacity key.val value.val).1 = true := by
    rw [LinkedNode.store_fst]
    exact decide_eq_true room
  have own := store_placed type.capacity value (fun _ => @state.real_placed _ source node thread target type _)
    ownAbove
  have found := LinkedNode.find_store_isSome stored
  generalize ((node.fetchedReal thread target).store type.capacity key.val value.val).2 = real
    at replies served realImage own found
  have placed := serve_real_placed helpAnswer_truthful type.capacity (node.fetchedPred thread target) own
    (node.contexts thread).requests
  have told := serve_acknowledges_below_iff served
  obtain ⟨addedPred, addedReal, work⟩ := serve_served helpAnswer_truthful type.capacity
    (node.slist.nodes target).anchor (node.fetchedPred thread target) real (node.contexts thread).requests
  unfold helpOthers at replies served realImage
  have storedIff (other : Bytes16) : node.StoredAfter (node.putWon source thread target key.val value.val
      draws type plan).node target other ↔
        ((node.imageOf (node.backwardOf target)).find other.val).isSome ∨
          ((serve helpAnswer type.capacity (node.slist.nodes target).anchor (node.fetchedPred thread target)
            real (node.contexts thread).requests).real.find other.val).isSome := by
    unfold StoredAfter
    rw [only, List.exists_mem_cons_iff, predImage, List.exists_mem_cons_iff,
      LinkedNode.find_of_entries realImage]
    simp
  constructor
  · intro durable predRoom request isMember below
    by_contra notThere
    have isNew : (node.fetchedPred thread target).find request.tag.val = none := by
      rw [LinkedNode.find_of_entries state.pred_entries]
      exact Option.not_isSome_iff_eq_none.mp notThere
    obtain ⟨answered, inReplies, succeed, isBelow, absent⟩ := acknowledged_of_new _ real _ predRoom served
      ⟨request, isMember, below, isNew⟩
    rw [LinkedNode.find_of_entries state.pred_entries] at absent
    rcases (storedIff _).mp (durable.helped answered (by rw [replies]; exact inReplies) succeed) with
      inPred | inReal
    · rw [absent] at inPred
      cases inPred
    · exact placed _ (LinkedNode.holds_of_find inReal) isBelow
  · intro kept
    constructor
    · apply (storedIff key).mpr
      right
      rw [work.realGrows]
      exact LinkedNode.find_appendAll_isSome _ found
    · intro answered inReplies succeed
      rw [replies] at inReplies
      apply (storedIff _).mpr
      obtain ⟨inQueue, _, placeOf⟩ := work.answers answered inReplies
      have place := placeOf succeed
      by_cases below : answered.1.tag.val < (node.slist.nodes target).anchor
      · left
        obtain ⟨_, _, _, predRoom⟩ := told.mp ⟨answered, inReplies, succeed, below⟩
        exact kept predRoom _ inQueue below
      · right
        rw [if_neg below] at place
        exact place

/-! ### A node written to one chunk -/

section Morph

variable {start after : ComputeNode} {pred real : LinkedNode} {requests : List ConcurrencyRequest}
variable {remote : RemotePointer} {added : List KV} {replies : List (ConcurrencyRequest × Reply)}
variable {chosen : LinkedNodeType}
variable (state : WinnerState source node target type)
variable (sameSlist : start.slist = node.slist) (sameRemote : start.remote = node.remote)
variable (rewritten : Rewritten source start thread target pred (sealedAs chosen real) requests remote after)
variable (loops : LoopsDone node thread target key value added replies pred real)

include state sameSlist sameRemote rewritten loops

/-- The images after the batch of a morph. -/
theorem rewritten_stored_iff (held : Bytes16) :
    node.StoredAfter (after.release thread target) target held ↔
      (pred.find held.val).isSome ∨
        ((LinkedNode.overlay (sizeofNode chosen) (sealedAs chosen real) (node.remote remote)).find
          held.val).isSome := by
  have samePred : start.predData target = node.predData target := by
    unfold predData backwardOf
    rw [sameSlist]
  have moved := rewritten.moved
  have memory := rewritten.memory
  have apart := rewritten.apart
  rw [sameSlist] at moved
  rw [sameRemote, samePred] at memory
  rw [samePred] at apart
  have isPred : (after.imageOf (node.backwardOf target)).entries = pred.entries := by
    have place : (after.slist.nodes (node.backwardOf target)).dataNode = node.predData target := by
      rw [moved.dataNode, if_neg state.pred_ne]
      rfl
    rw [imageOf, place, memory, Function.update_of_ne apart.symm, Function.update_self]
    exact loops.pred_after state remote
  have isReal : after.imageOf target =
      LinkedNode.overlay (sizeofNode chosen) (sealedAs chosen real) (node.remote remote) := by
    have place : (after.slist.nodes target).dataNode = remote := by
      rw [moved.dataNode, if_pos rfl]
    rw [imageOf, place, memory, Function.update_self]
    rfl
  have only : resulting node after target = [target] := by
    rw [resulting, moved.count, Nat.sub_self]
    rfl
  unfold StoredAfter
  simp only [release_imageOf, release_resulting]
  rw [only, List.exists_mem_cons_iff, List.exists_mem_cons_iff, LinkedNode.find_of_entries isPred, isReal]
  simp

/-- A morph keeps every record exactly when the chosen type has room for all of them. -/
theorem rewritten_durable (isData : chosen.IsData) (fits : real.next ≤ chosen.capacity) (ret : Bool) :
    Durable node target key ⟨ret, replies, after.release thread target⟩ := by
  have covered := pairsOffset_le_sizeofNode isData
  have stored := @rewritten_stored_iff _ source node thread target type key value start after pred real
    requests remote added replies chosen state sameSlist sameRemote rewritten loops
  apply loops.durable
  · intro held found
    exact (stored held).mpr (Or.inl found)
  · intro held _ found
    apply (stored held).mpr
    right
    rw [LinkedNode.find_overlay]
    · exact found
    · change pairsOffset + 32 * real.next ≤ _
      omega

theorem rewritten_not_durable (sameHeap : start.heap = node.heap) (isData : chosen.IsData)
    (large : (node.fetchedReal thread target).next ≤ chosen.capacity)
    (beyond : chosen.capacity < real.next) (clean : CleanReserve source node thread target key value)
    (ret : Bool) : ¬ Durable node target key ⟨ret, replies, after.release thread target⟩ := by
  have isNew : real.pairs chosen.capacity ∈ added := by
    have bound := beyond
    rw [loops.grown] at bound ⊢
    exact LinkedNode.pairs_appendAll_mem added large bound
  apply loops.not_durable isNew
  rw [rewritten_stored_iff state sameSlist sameRemote rewritten loops, loops.not_in_pred isNew]
  have fresh := rewritten.fresh
  rw [sameHeap] at fresh
  have lost := @LinkedNode.find_overlay_lost _ (sealedAs chosen real) (node.remote remote) chosen isData
    loops.distinct _ le_rfl beyond (loops.clean_of_new clean fresh isNew)
  change LinkedNode.find _ (real.pairs chosen.capacity).key.val = none at lost
  rw [lost]
  simp

end Morph

/-! ### A node split into two chunks -/

section Split

variable {start after : ComputeNode} {pred real left right : LinkedNode}
variable {requests : List ConcurrencyRequest} {l r : RemotePointer} {added : List KV}
variable {replies : List (ConcurrencyRequest × Reply)} {anchor : Str} {level : Level}
variable {leftType rightType leftArgument rightArgument : LinkedNodeType}
variable (state : WinnerState source node target type)
variable (sameSlist : start.slist = node.slist) (sameRemote : start.remote = node.remote)
variable (split : SplitInTwo source start thread target pred (sealedAs leftType left)
  (sealedAs rightType right) anchor leftArgument rightArgument requests level l r after)
variable (loops : LoopsDone node thread target key value added replies pred real)

include state sameSlist sameRemote split loops

/-- The images after the batch of a split. -/
theorem split_stored_iff (held : Bytes16) :
    node.StoredAfter (after.release thread target) target held ↔
      (pred.find held.val).isSome ∨
        ((LinkedNode.overlay (sizeofNode leftArgument) { sealedAs leftType left with rlink := r }
          (node.remote l)).find held.val).isSome ∨
        ((LinkedNode.overlay (sizeofNode rightArgument)
          { sealedAs rightType right with rlink := left.rlink } (node.remote r)).find held.val).isSome := by
  have samePred : start.predData target = node.predData target := by
    unfold predData backwardOf
    rw [sameSlist]
  have known : target ≠ start.slist.count := by
    rw [sameSlist]
    exact state.known.ne
  have nodes := split.released known
  have memory := split.memory
  have leftApart := split.leftApart
  have rightApart := split.rightApart
  rw [sameSlist] at nodes
  rw [sameRemote, samePred] at memory
  rw [samePred] at leftApart rightApart
  have isPred : ((after.release thread target).imageOf (node.backwardOf target)).entries = pred.entries := by
    have place : ((after.release thread target).slist.nodes (node.backwardOf target)).dataNode =
        node.predData target :=
      ((nodes.others _ state.predKnown.ne).2.2 state.pred_ne).1
    rw [imageOf, place]
    change (after.remote _).entries = _
    rw [memory, Function.update_of_ne rightApart.symm, Function.update_of_ne leftApart.symm,
      Function.update_self]
    exact loops.pred_after state l
  have isLeft : (after.release thread target).imageOf target = LinkedNode.overlay (sizeofNode leftArgument)
      { sealedAs leftType left with rlink := r } (node.remote l) := by
    rw [imageOf, nodes.left.1]
    change after.remote l = _
    rw [memory, Function.update_of_ne split.differ, Function.update_self]
  have isRight : (after.release thread target).imageOf node.slist.count =
      LinkedNode.overlay (sizeofNode rightArgument)
        { sealedAs rightType right with rlink := left.rlink } (node.remote r) := by
    rw [imageOf, nodes.right.1]
    change after.remote r = _
    rw [memory, Function.update_self]
    rfl
  have both : resulting node (after.release thread target) target = [target, node.slist.count] := by
    rw [resulting, nodes.count, Nat.add_sub_cancel_left]
    rfl
  unfold StoredAfter
  rw [both, List.exists_mem_cons_iff, List.exists_mem_cons_iff, List.exists_mem_cons_iff,
    LinkedNode.find_of_entries isPred, isLeft, isRight]
  simp

variable {buffer : LinkedNode} {leftCap : Nat} {picked : Nat → Bool}
variable (sameEntries : buffer.entries = real.entries)
variable (halved : Halved buffer leftCap picked left right anchor)

include sameEntries halved

omit state sameSlist sameRemote split in
/-- Both halves are marked, and together hold the node's keys. -/
theorem halves_found : left.Fingerprinted ∧ right.Fingerprinted ∧
    ∀ held, real.Holds held → left.Holds held ∨ right.Holds held := by
  have marked := loops.marked
  have perm := halved.entries_perm
  have records := halved.records_perm
  rw [sameEntries] at perm
  rw [records_of_entries sameEntries] at records
  rw [LinkedNode.fingerprinted_iff_entries] at marked
  refine ⟨?_, ?_, ?_⟩
  · rw [LinkedNode.fingerprinted_iff_entries]
    exact fun entry isMember => marked entry (perm.mem_iff.mp (List.mem_append_left _ isMember))
  · rw [LinkedNode.fingerprinted_iff_entries]
    exact fun entry isMember => marked entry (perm.mem_iff.mp (List.mem_append_right _ isMember))
  · intro held isHeld
    rw [LinkedNode.holds_iff_records] at isHeld ⊢
    rw [LinkedNode.holds_iff_records]
    obtain ⟨pair, isRecord, isKey⟩ := isHeld
    rcases List.mem_append.mp (records.mem_iff.mpr isRecord) with isLeft | isRight
    · exact Or.inl ⟨pair, isLeft, isKey⟩
    · exact Or.inr ⟨pair, isRight, isKey⟩

/-- A split whose transfers cover both halves keeps every record. -/
theorem split_durable (leftData : leftArgument.IsData) (rightData : rightArgument.IsData)
    (leftFits : leftCap ≤ leftArgument.capacity)
    (rightFits : real.next - leftCap ≤ rightArgument.capacity) (ret : Bool) :
    Durable node target key ⟨ret, replies, after.release thread target⟩ := by
  obtain ⟨leftMarked, rightMarked, halves⟩ := halves_found loops sameEntries halved
  have stored := @split_stored_iff _ source node thread target type key value start after pred real left
    right requests l r added replies anchor level leftType rightType leftArgument rightArgument state
    sameSlist sameRemote split loops
  have leftCovered := pairsOffset_le_sizeofNode leftData
  have rightCovered := pairsOffset_le_sizeofNode rightData
  have leftNext := halved.left_next
  have rightNext := halved.right_next
  rw [next_of_entries sameEntries] at rightNext
  apply loops.durable
  · intro held found
    exact (stored held).mpr (Or.inl found)
  · intro held _ found
    apply (stored held).mpr
    right
    rcases halves held (LinkedNode.holds_of_find found) with inLeft | inRight
    · left
      rw [LinkedNode.find_overlay]
      · exact (LinkedNode.find_isSome_iff leftMarked).mpr inLeft
      · change pairsOffset + 32 * left.next ≤ _
        omega
    · right
      rw [LinkedNode.find_overlay]
      · exact (LinkedNode.find_isSome_iff rightMarked).mpr inRight
      · change pairsOffset + 32 * right.next ≤ _
        omega

omit state sameSlist sameRemote split in
/-- Which records go left, by rank among all keys of the node. -/
theorem picked_iff_rank (state : WinnerState source node target type) {index : Nat}
    (bound : index < buffer.next) :
    picked index = true ↔
      (node.knownKeys target ++ (node.newOffers thread target key value).map KV.key).countP
        (fun other => other.val < (buffer.pairs index).key.val) < leftCap := by
  have distinct : buffer.DistinctKeys := by
    have whole := loops.distinct
    rw [LinkedNode.distinctKeys_iff_records] at whole ⊢
    rw [records_of_entries sameEntries]
    exact whole
  have keys : (buffer.records.map KV.key).Perm
      (node.knownKeys target ++ (node.newOffers thread target key value).map KV.key) := by
    rw [records_of_entries sameEntries, loops.grown, LinkedNode.records_appendAll, List.map_append,
      state.real_records]
    exact loops.keys.append_left _
  rw [halved.least.picked_iff _ bound, ← keys.countP_eq, LinkedNode.records, List.map_map, List.countP_map]
  · rfl
  · intro first firstBound second secondBound same
    exact distinct first firstBound second secondBound (Subtype.ext same)

omit sameSlist sameRemote split in
include state in
/-- A new record that goes right is behind the old ones there. -/
theorem last_right_new (wrong : ¬ node.NewGoLeft thread target key value leftCap) :
    right.pairs (right.next - 1) ∈ added ∧ 0 < right.next := by
  simp only [NewGoLeft, not_forall, not_lt, exists_prop] at wrong
  obtain ⟨pair, isNew, rank⟩ := wrong
  have inAdded := loops.keys.mem_iff.mpr (List.mem_map_of_mem isNew)
  obtain ⟨other, isOther, sameKey⟩ := List.mem_map.mp inAdded
  obtain ⟨index, behind, bound, isSlot⟩ := @LinkedNode.slot_of_appendAll (node.fetchedReal thread target) _ added
    other isOther
  obtain ⟨sameNext, _, samePairs⟩ := LinkedNode.slots_of_entries sameEntries
  rw [← loops.grown, ← sameNext] at bound
  have isPair := samePairs index bound
  rw [loops.grown, isSlot] at isPair
  have notPicked : picked index = false := by
    rw [← Bool.not_eq_true, picked_iff_rank loops sameEntries halved state bound, isPair, sameKey, not_lt]
    exact rank
  -- the right half lists its records in slot order, the new ones last
  obtain ⟨old, isOld⟩ : ∃ old, old = (node.fetchedReal thread target).next := ⟨_, rfl⟩
  rw [← isOld] at behind
  have places : List.range buffer.next = List.range old ++ List.range' old (buffer.next - old) := by
    have joined := @List.range'_append_1 0 old (buffer.next - old)
    rw [Nat.zero_add, Nat.add_sub_cancel' (by omega)] at joined
    rw [List.range_eq_range', List.range_eq_range', joined]
  have records : right.records =
      ((List.range old).filter fun place => !picked place).map buffer.pairs ++
        ((List.range' old (buffer.next - old)).filter fun place => !picked place).map buffer.pairs := by
    rw [← List.map_append, ← List.filter_append, ← places, ← LinkedNode.entries_map_snd,
      halved.rightEntries, List.map_map]
    rfl
  have isLater : buffer.pairs index ∈
      ((List.range' old (buffer.next - old)).filter fun place => !picked place).map buffer.pairs := by
    apply List.mem_map_of_mem
    rw [List.mem_filter, List.mem_range'_1]
    exact ⟨⟨behind, by omega⟩, by rw [notPicked]; rfl⟩
  have later : ∀ moved ∈
      ((List.range' old (buffer.next - old)).filter fun place => !picked place).map buffer.pairs,
      moved ∈ added := by
    intro moved isMoved
    obtain ⟨place, inPlaces, isPlace⟩ := List.mem_map.mp isMoved
    obtain ⟨low, high⟩ := List.mem_range'_1.mp (List.mem_filter.mp inPlaces).1
    rw [← isPlace, samePairs place (by omega), loops.grown]
    apply LinkedNode.pairs_appendAll_mem
    · rw [← isOld]
      exact low
    · rw [← loops.grown, ← sameNext]
      omega
  generalize ((List.range' old (buffer.next - old)).filter fun place => !picked place).map buffer.pairs =
    second at records isLater later
  have some : right.next ≠ 0 := by
    intro none
    rw [← LinkedNode.length_records, records, List.length_append] at none
    have positive := List.length_pos_of_mem isLater
    omega
  have isLast : right.records.getLast? = Option.some (right.pairs (right.next - 1)) := by
    rw [List.getLast?_eq_getElem?, LinkedNode.length_records, LinkedNode.records, List.getElem?_map,
      List.getElem?_range (by omega)]
    rfl
  rw [records, List.getLast?_append_of_ne_nil _ (List.ne_nil_of_mem isLater)] at isLast
  exact ⟨later _ (List.mem_of_getLast? isLast), Nat.pos_of_ne_zero some⟩

/-- A split that cuts off a right record keeps the new ones if they all go left. -/
theorem split_durable_left (leftData : leftArgument.IsData) (leftFits : leftCap ≤ leftArgument.capacity)
    (allNew : (node.newOffers thread target key value).length =
      (node.ownOffers thread target key value).length)
    (goLeft : node.NewGoLeft thread target key value leftCap) (ret : Bool) :
    Durable node target key ⟨ret, replies, after.release thread target⟩ := by
  obtain ⟨leftMarked, _, _⟩ := halves_found loops sameEntries halved
  have stored := @split_stored_iff _ source node thread target type key value start after pred real left
    right requests l r added replies anchor level leftType rightType leftArgument rightArgument state
    sameSlist sameRemote split loops
  have covered := pairsOffset_le_sizeofNode leftData
  have leftNext := halved.left_next
  apply loops.durable
  · intro held found
    exact (stored held).mpr (Or.inl found)
  · intro held isOffer found
    apply (stored held).mpr
    right
    left
    obtain ⟨offer, inOffers, isHeld⟩ := List.mem_map.mp isOffer
    have notKnown := LinkedNode.notMem_of_all_new _ _ allNew offer inOffers
    have isNew := (LinkedNode.mem_keys_newRecords _ _).mpr ⟨List.mem_map_of_mem inOffers, notKnown⟩
    rw [isHeld] at isNew
    obtain ⟨pair, isPair, sameKey⟩ := List.mem_map.mp isNew
    have inReal := LinkedNode.holds_of_find found
    rw [LinkedNode.holds_iff_records, ← records_of_entries sameEntries, ← LinkedNode.holds_iff_records]
      at inReal
    obtain ⟨index, bound, isSlot⟩ := inReal
    have rank := goLeft pair isPair
    rw [sameKey, ← isSlot] at rank
    have isPicked := (picked_iff_rank loops sameEntries halved state bound).mpr rank
    have inLeft : left.Holds held := by
      rw [LinkedNode.holds_iff_records, ← LinkedNode.entries_map_snd, halved.leftEntries, List.map_map]
      refine ⟨_, List.mem_map_of_mem (List.mem_filter.mpr ⟨List.mem_range.mpr bound, isPicked⟩), isSlot⟩
    rw [LinkedNode.find_overlay]
    · exact (LinkedNode.find_isSome_iff leftMarked).mpr inLeft
    · change pairsOffset + 32 * left.next ≤ _
      omega

/-- It loses a new one otherwise. -/
theorem split_not_durable (sameHeap : start.heap = node.heap) (leftData : leftArgument.IsData)
    (rightData : rightArgument.IsData) (leftFits : leftCap ≤ leftArgument.capacity)
    (oneMore : right.next = rightArgument.capacity + 1)
    (clean : CleanReserve source node thread target key value)
    (wrong : ¬ node.NewGoLeft thread target key value leftCap) (ret : Bool) :
    ¬ Durable node target key ⟨ret, replies, after.release thread target⟩ := by
  obtain ⟨isNew, _⟩ := last_right_new state loops sameEntries halved wrong
  rw [oneMore, Nat.add_sub_cancel] at isNew
  have keys : (left.records.map KV.key ++ right.records.map KV.key).Nodup := by
    have distinct := loops.distinct
    rw [LinkedNode.distinctKeys_iff_records, ← records_of_entries sameEntries] at distinct
    rw [← List.map_append]
    exact (halved.records_perm.map KV.key).nodup_iff.mpr distinct
  rw [List.nodup_append] at keys
  have bound : rightArgument.capacity < right.next := by omega
  have inRight : right.Holds (right.pairs rightArgument.capacity).key := ⟨_, bound, rfl⟩
  have leftCovered := pairsOffset_le_sizeofNode leftData
  have leftNext := halved.left_next
  have notLeft : (LinkedNode.overlay (sizeofNode leftArgument) { sealedAs leftType left with rlink := r }
      (node.remote l)).find (right.pairs rightArgument.capacity).key.val = none := by
    rw [LinkedNode.find_overlay]
    · by_contra found
      have inLeft : left.Holds (right.pairs rightArgument.capacity).key :=
        LinkedNode.holds_of_find (Option.isSome_iff_ne_none.mpr found)
      rw [LinkedNode.holds_iff_records] at inLeft inRight
      obtain ⟨first, isFirst, firstKey⟩ := inLeft
      obtain ⟨second, isSecond, secondKey⟩ := inRight
      exact keys.2.2 _ (List.mem_map_of_mem isFirst) _ (List.mem_map_of_mem isSecond)
        (firstKey.trans secondKey.symm)
    · change pairsOffset + 32 * left.next ≤ _
      omega
  have fresh := split.rightFresh.1
  rw [sameHeap] at fresh
  have notRight := @LinkedNode.find_overlay_lost _
    { sealedAs rightType right with rlink := left.rlink } (node.remote r) rightArgument rightData
    (LinkedNode.distinctKeys_iff_records.mpr keys.2.1) _ le_rfl bound
    (loops.clean_of_new clean fresh isNew)
  change LinkedNode.find _ (right.pairs rightArgument.capacity).key.val = none at notRight
  apply loops.not_durable isNew
  rw [split_stored_iff state sameSlist sameRemote split loops, loops.not_in_pred isNew, notLeft, notRight]
  simp

end Split

/-! ### Every put -/

omit [Digest] in
theorem planOf_morph (isData : type.IsData) {pendings : Nat} (isPlan : planOf type pendings = .morph) :
    type = .type10 := by
  rcases planOf_cases isData pendings with ⟨isEager, _⟩ | ⟨_, _ | ⟨_, _, _, _, _, isSplit, _⟩⟩
  · rw [isEager] at isPlan
    cases isPlan
  · cases type with
    | type10 => rfl
    | type12 =>
        change plan12 pendings = .morph at isPlan
        unfold plan12 at isPlan
        split at isPlan <;> cases isPlan
    | type14 =>
        change plan14 pendings = .morph at isPlan
        unfold plan14 at isPlan
        split at isPlan <;> cases isPlan
    | type16 =>
        change plan16 pendings = .morph at isPlan
        unfold plan16 at isPlan
        split at isPlan
        next => cases isPlan
        next => split at isPlan <;> cases isPlan
    | _ => exact absurd isData id
  · rw [isSplit] at isPlan
    cases isPlan

omit [Digest] in
/-- How a plan splits the records of a node: both transfers cover their half, but for
nineteen records of a node of type 14. -/
theorem planOf_split (isData : type.IsData) {pendings records leftCap : Nat}
    {leftType rightType leftArgument rightArgument : LinkedNodeType}
    (isPlan : planOf type pendings = .split leftCap leftType rightType leftArgument rightArgument)
    (few : pendings ≤ 5) (bound : records ≤ type.capacity + pendings) :
    (leftArgument.IsData ∧ rightArgument.IsData ∧ leftCap < type.capacity ∧
        leftCap ≤ leftArgument.capacity) ∧
      (¬ (type = .type14 ∧ records = 19) → records - leftCap ≤ rightArgument.capacity) ∧
        (type = .type14 → leftCap = 8 ∧ rightArgument = .type10) := by
  cases type with
  | type10 => cases isPlan
  | type12 =>
      change plan12 pendings = _ at isPlan
      unfold plan12 at isPlan
      change records ≤ 12 + pendings at bound
      split at isPlan
      next => cases isPlan
      next =>
        cases isPlan
        exact ⟨by decide, fun _ => show records - 9 ≤ 10 by omega, fun isFourteen => by cases isFourteen⟩
  | type14 =>
      change plan14 pendings = _ at isPlan
      unfold plan14 at isPlan
      change records ≤ 14 + pendings at bound
      split at isPlan
      next => cases isPlan
      next =>
        cases isPlan
        refine ⟨by decide, fun small => show records - 8 ≤ 10 from ?_, fun _ => ⟨rfl, rfl⟩⟩
        have notAll : records ≠ 19 := fun all => small ⟨rfl, all⟩
        omega
  | type16 =>
      change plan16 pendings = _ at isPlan
      unfold plan16 at isPlan
      change records ≤ 16 + pendings at bound
      split at isPlan
      next =>
        cases isPlan
        exact ⟨by decide, fun _ => show records - 9 ≤ 10 by omega, fun isFourteen => by cases isFourteen⟩
      next =>
        split at isPlan
        next =>
          cases isPlan
          exact ⟨by decide, fun _ => show records - 9 ≤ 12 by omega, fun isFourteen => by cases isFourteen⟩
        next =>
          cases isPlan
          exact ⟨by decide, fun _ => show records - 10 ≤ 12 by omega, fun isFourteen => by cases isFourteen⟩
  | _ => exact absurd isData id

/-- What must not happen for every acknowledged record to be kept: a new record for the
predecessor on the path that writes only the node; a fingerprint of zero that makes
`morph_node` choose too small a type; and a new record among those that `put14` moves
right when there are eleven. -/
structure HandoverKept (node : ComputeNode) (thread : ThreadId) (target : NodeId) (key value : Bytes16)
    (type : LinkedNodeType) : Prop where
  inPlace : node.FitsInPlace thread target key value type → node.PredRoom thread target →
    ∀ request ∈ (node.contexts thread).requests, request.tag.val < (node.slist.nodes target).anchor →
      ((node.imageOf (node.backwardOf target)).find request.tag.val).isSome
  morph : ¬ node.FitsInPlace thread target key value type → type = .type10 →
    ((node.imageOf target).appendAll (node.newOffers thread target key value)).next ≤
      (morphNode ((node.imageOf target).appendAll (node.newOffers thread target key value))).capacity
  split : ¬ node.FitsInPlace thread target key value type → type = .type14 →
    (node.knownKeys target).length + (node.newOffers thread target key value).length = 19 →
      node.NewGoLeft thread target key value 8

section Deferred

variable {start : ComputeNode} {done : Bool} {earlier : List (ConcurrencyRequest × Reply)}
variable (state : WinnerState source node target type)
variable (ownAbove : ¬ key.val < (node.slist.nodes target).anchor)
variable (few : (node.contexts thread).requests.length ≤ 4)
variable (deferred : Deferred node start thread target type done)
variable (resumes : Resumes node start thread target key value type done earlier)
variable (isDone : draws.batch = .done)

include state ownAbove few deferred resumes isDone

/-- `put10` keeps every record unless `morph_node` chooses too small a type. -/
theorem morph_durable_iff (isTen : type = .type10) :
    let grown := (node.imageOf target).appendAll (node.newOffers thread target key value)
    (grown.next ≤ (morphNode grown).capacity →
        Durable node target key (planned source start thread target key value draws done earlier .morph)) ∧
      (CleanReserve source node thread target key value →
        Durable node target key (planned source start thread target key value draws done earlier .morph) →
          grown.next ≤ (morphNode grown).capacity) := by
  intro grown
  obtain ⟨added, loops⟩ := loopsDone_morph state ownAbove resumes deferred.slist isTen few
  obtain ⟨remote, after, moved, rewritten⟩ := morphPath_done start thread target key.val value.val done
    (by rw [deferred.heap]; exact state.sound)
    (by unfold predData backwardOf; rw [deferred.heap, deferred.slist]; exact state.predTaken) isDone rfl
  unfold planned followPlan
  rw [moved]
  generalize start.morphWork thread target key.val value.val done = work at loops rewritten
  have sameNext := next_of_entries (@state.real_entries _ source node thread target type)
  have small : type.capacity = 10 := by rw [isTen]; rfl
  have within := @state.real_next _ source node thread target type
  have offers := (LinkedNode.newRecords_sublist (node.knownKeys target)
    (node.ownOffers thread target key value)).length_le
  have queue := @length_aboveOffers_le (node.slist.nodes target).anchor (node.contexts thread).requests
  have ownLength : (node.ownOffers thread target key value).length = (node.hereOffers thread target).length + 1 :=
    List.length_cons
  change (node.newOffers thread target key value).length ≤ _ at offers
  change (node.hereOffers thread target).length ≤ _ at queue
  have grownNext : grown.next = work.real.next := by
    rw [loops.next, loops.length, sameNext]
    exact LinkedNode.appendAll_next _
  have chosen : morphNode grown = morphNode work.real := by
    have nonempty : sizeofNode (node.slist.nodes target).type ≠ 0 := by
      rw [state.isType]
      exact sizeofNode_ne_zero state.isData
    have fingerprints : (node.imageOf target).fingerprints = (node.fetchedReal thread target).fingerprints :=
      (LinkedNode.overlay_fingerprints nonempty).symm
    rw [loops.grown]
    exact (morphNode_congr (LinkedNode.appendAll_fingerprints_congr _ sameNext.symm fingerprints)).trans
      (morphNode_appendAll_perm _ loops.keys.symm (by omega))
  have isData := morphNode_isData work.real
  rw [grownNext, chosen]
  constructor
  · intro fits
    exact rewritten_durable state deferred.slist deferred.remote rewritten loops isData fits true
  · intro clean durable
    by_contra beyond
    exact rewritten_not_durable state deferred.slist deferred.remote rewritten loops deferred.heap isData
      (within.trans (by rw [small]; exact ten_le_capacity isData)) (not_le.mp beyond) clean true durable

omit few in
/-- `eager_morph` keeps every record. -/
theorem eager_durable (fits : type.capacity + ((start.contexts thread).requests.length +
    (if done then 0 else 1)) ≤ 16) (grows : type.capacity < 16) :
    (node.knownKeys target).length + (node.newOffers thread target key value).length ≤ 16 ∧
      Durable node target key (planned source start thread target key value draws done earlier .eager) := by
  obtain ⟨work, isWork⟩ : ∃ work, start.eagerWork thread target key.val value.val done = work := ⟨_, rfl⟩
  have whole := isWork
  unfold eagerWork at whole
  rw [deferred.slist] at whole
  obtain ⟨added, loops⟩ := loopsDone_help state ownAbove resumes deferred grows fits whole
  obtain ⟨remote, after, moved, rewritten⟩ := eagerMorph_done start thread target key.val value.val done
    (by rw [deferred.heap]; exact state.sound)
    (by unfold predData backwardOf; rw [deferred.heap, deferred.slist]; exact state.predTaken) isDone isWork
  unfold planned followPlan
  rw [moved]
  have bound := help_next_le deferred whole
  have records := loops.records_next state
  refine ⟨by omega, ?_⟩
  exact rewritten_durable state deferred.slist deferred.remote rewritten loops LinkedNodeType.isData16
    (show work.real.next ≤ 16 by omega) true

omit isDone in
/-- A split keeps every record, but for nineteen records of a node of type 14, of which the
new ones must go left. -/
theorem split_durable_iff (isDone : draws.batch = .done)
    (overfull : ¬ node.FitsInPlace thread target key value type) {leftCap : Nat}
    {leftType rightType leftArgument rightArgument : LinkedNodeType}
    (isPlan : planOf type ((start.contexts thread).requests.length + (if done then 0 else 1)) =
      .split leftCap leftType rightType leftArgument rightArgument)
    (fewPending : (start.contexts thread).requests.length + (if done then 0 else 1) ≤ 5) :
    let kept := type = .type14 →
      (node.knownKeys target).length + (node.newOffers thread target key value).length = 19 →
        node.NewGoLeft thread target key value 8
    let outcome := planned source start thread target key value draws done earlier
      (.split leftCap leftType rightType leftArgument rightArgument)
    (kept → Durable node target key outcome) ∧
      (CleanReserve source node thread target key value → Durable node target key outcome → kept) := by
  intro kept outcome
  obtain ⟨work, isWork⟩ : ∃ work, helpOthers bufferCapacity (node.slist.nodes target).anchor
    (start.buffers thread 0)
    (if done then start.buffers thread 1
      else ((start.buffers thread 1).store bufferCapacity key.val value.val).2)
    (start.contexts thread).requests = work := ⟨_, rfl⟩
  have room := planOf_room state.isData ((start.contexts thread).requests.length + (if done then 0 else 1))
  have small := capacity_le_sixteen type
  have buffer : bufferCapacity = 21 := rfl
  rw [isPlan] at room
  change type.capacity + 1 < bufferCapacity at room
  obtain ⟨added, loops⟩ := loopsDone_help state ownAbove resumes deferred (by omega) (by omega) isWork
  have high := help_next_le deferred isWork
  have low := loops.le_next state overfull
  obtain ⟨sizes, covered, fourteen⟩ := planOf_split state.isData isPlan fewPending high
  obtain ⟨leftData, rightData, fewer, leftFits⟩ := sizes
  have bounded := deferred.bounded
  obtain ⟨staging, isStaging⟩ : ∃ staging,
    start.splitWork thread target key.val value.val done = staging := ⟨_, rfl⟩
  have same := @splitWork_entries _ thread target key value start done (by omega)
  rw [deferred.slist] at same
  simp only [isWork, isStaging] at same
  obtain ⟨samePred, sameEntries, _, sameReplies⟩ := same
  have sameNext := next_of_entries sameEntries
  obtain ⟨l, r, after, moved, split⟩ := splitPath_done start thread target key.val value.val leftCap leftType
    rightType done (by rw [deferred.heap]; exact state.sound)
    (by unfold predData backwardOf; rw [deferred.heap, deferred.slist]; exact state.predTaken) leftData
    rightData (by rw [deferred.slist]; exact state.known.ne) isDone isStaging rfl
  obtain ⟨picked, halved, _, _⟩ := splitBuffer_spec staging.real (start.buffers thread 1)
    (start.buffers thread 2) (show leftCap < staging.real.next by omega)
  rw [samePred] at split
  have isOutcome : outcome = ⟨true, earlier ++ work.replies, after.release thread target⟩ := by
    change planned _ _ _ _ _ _ _ _ _ _ = _
    unfold planned followPlan
    simp only [moved, sameReplies]
  rw [isOutcome]
  generalize splitBuffer staging.real (start.buffers thread 1) (start.buffers thread 2) leftCap = halves
    at split halved
  have rightNext := halved.right_next
  have records := loops.records_next state
  by_cases cutsOff : type = .type14 ∧ work.real.next = 19
  · obtain ⟨isFourteen, all⟩ := cutsOff
    obtain ⟨isEight, isTen⟩ := fourteen isFourteen
    have fits := state.fits
    have isNext : (node.knownKeys target).length = (node.imageOf target).next := by
      rw [knownKeys, List.length_map, LinkedNode.length_records]
    have fourteenPairs : type.capacity = 14 := by rw [isFourteen]; rfl
    have tenPairs : rightArgument.capacity = 10 := by rw [isTen]; rfl
    have allNew : (node.newOffers thread target key value).length =
        (node.ownOffers thread target key value).length := by
      have offers := (LinkedNode.newRecords_sublist (node.knownKeys target)
        (node.ownOffers thread target key value)).length_le
      change (node.newOffers thread target key value).length ≤ _ at offers
      have queue := @length_aboveOffers_le (node.slist.nodes target).anchor (node.contexts thread).requests
      have ownLength : (node.ownOffers thread target key value).length =
          (node.hereOffers thread target).length + 1 := List.length_cons
      change (node.hereOffers thread target).length ≤ _ at queue
      omega
    constructor
    · intro goLeft
      have toLeft := goLeft isFourteen (by omega)
      rw [← isEight] at toLeft
      exact split_durable_left state deferred.slist deferred.remote split loops sameEntries halved leftData
        leftFits allNew toLeft true
    · intro clean durable _ _
      rw [← isEight]
      by_contra wrong
      exact split_not_durable state deferred.slist deferred.remote split loops sameEntries halved
        deferred.heap leftData rightData leftFits (by omega) clean wrong true durable
  · constructor
    · intro _
      exact split_durable state deferred.slist deferred.remote split loops sameEntries halved leftData
        rightData leftFits (covered cutsOff) true
    · intro _ _ isFourteen all
      exact absurd ⟨isFourteen, by omega⟩ cutsOff

end Deferred

/-- A put leaves at most its queue and its own record pending. -/
theorem tryPut_pendings_bound (node : ComputeNode) (key value : Bytes16) (draws : PutDraws)
    (type : LinkedNodeType) :
    ((node.fetchTwo thread target).tryPutToExistingNode thread target key.val value.val draws type).1.2 ≤
      (node.contexts thread).requests.length + 1 := by
  rw [tryPut_pendings]
  split
  next =>
    rw [firstWork_fetched]
    obtain ⟨_, _, served⟩ := serve_served helpAnswer_truthful type.capacity (node.slist.nodes target).anchor
      (node.fetchedPred thread target)
      ((node.fetchedReal thread target).store type.capacity key.val value.val).2
      (node.contexts thread).requests
    have length := served.length
    unfold helpOthers
    omega
  next => exact le_rfl

/-- With at most four requests in the queue and every write done, the put's own record and
every acknowledged one are in remote memory if the handover is kept, and on clean memory
only then. -/
theorem handover_durable (node : ComputeNode) (source : SegmentSource) (thread : ThreadId)
    (target : NodeId) (key value : Bytes16) {draws : PutDraws} {type : LinkedNodeType}
    (state : WinnerState source node target type)
    (ownAbove : ¬ key.val < (node.slist.nodes target).anchor)
    (few : (node.contexts thread).requests.length ≤ 4) (writeDone : draws.write = .done)
    (batchDone : draws.batch = .done) :
    (node.HandoverKept thread target key value type →
        Durable node target key (node.putFor source thread target key.val value.val draws type)) ∧
      (CleanReserve source node thread target key value →
        Durable node target key (node.putFor source thread target key.val value.val draws type) →
          node.HandoverKept thread target key value type) := by
  rw [node.putFor_eq source thread target key.val value.val draws state.isData]
  by_cases fits : node.FitsInPlace thread target key value type
  · have inPlace := @inPlace_durable_iff _ source node thread target type key value draws state ownAbove
      writeDone (planOf type) fits
    constructor
    · intro kept
      exact inPlace.mpr (kept.inPlace fits)
    · intro _ durable
      exact ⟨fun _ => inPlace.mp durable, fun overfull => absurd fits overfull,
        fun overfull => absurd fits overfull⟩
  · obtain ⟨start, done, earlier, deferred, _, resumes, isPending, won⟩ :=
      @putWon_deferred _ source thread target type node key value draws (planOf type) state.real_next fits
    have fewPending := @tryPut_pendings_bound _ thread target node key value draws type
    have isOutcome : node.putWon source thread target key.val value.val draws type (planOf type) =
        planned source start thread target key value draws done earlier (planOf type
          ((start.contexts thread).requests.length + (if done then 0 else 1))) := by
      rw [← isPending]
      exact won
    rw [isPending] at fewPending
    rw [isOutcome]
    cases isPlan : planOf type ((start.contexts thread).requests.length + (if done then 0 else 1)) with
    | morph =>
        have isTen := planOf_morph state.isData isPlan
        obtain ⟨enough, needed⟩ := morph_durable_iff state ownAbove few deferred resumes batchDone isTen
        constructor
        · intro kept
          exact enough (kept.morph fits isTen)
        · intro clean durable
          refine ⟨fun inPlace => absurd inPlace fits, fun _ _ => needed clean durable, ?_⟩
          intro _ isFourteen
          rw [isTen] at isFourteen
          cases isFourteen
    | eager =>
        have few : type.capacity + ((start.contexts thread).requests.length + (if done then 0 else 1)) ≤ 16 ∧
            type.capacity < 16 ∧ type ≠ .type10 := by
          rcases planOf_cases state.isData ((start.contexts thread).requests.length +
            (if done then 0 else 1)) with ⟨_, ⟨isTwelve, short⟩ | ⟨isFourteen, short⟩⟩ |
              ⟨_, isMorph | ⟨_, _, _, _, _, isSplit, _⟩⟩
          · rw [isTwelve]
            exact ⟨show 12 + _ ≤ 16 by omega, by decide, by decide⟩
          · rw [isFourteen]
            exact ⟨show 14 + _ ≤ 16 by omega, by decide, by decide⟩
          · rw [isMorph] at isPlan
            cases isPlan
          · rw [isSplit] at isPlan
            cases isPlan
        obtain ⟨small, durable⟩ := eager_durable state ownAbove deferred resumes batchDone few.1 few.2.1
        constructor
        · exact fun _ => durable
        · intro _ _
          refine ⟨fun inPlace => absurd inPlace fits, fun _ isTen => absurd isTen few.2.2, ?_⟩
          intro _ _ all
          omega
    | split leftCap leftType rightType leftArgument rightArgument =>
        obtain ⟨enough, needed⟩ := split_durable_iff state ownAbove few deferred resumes batchDone fits isPlan
          (by omega)
        constructor
        · intro kept
          exact enough (kept.split fits)
        · intro clean durable
          refine ⟨fun inPlace => absurd inPlace fits, ?_, fun _ => needed clean durable⟩
          intro _ isTen
          rw [isTen] at isPlan
          cases isPlan

end DiStore.Cluster.ComputeNode

/-! ### Handovers on concrete keys -/

namespace DiStore.Cluster.ComputeNode

open DiStore.Concurrency DiStore.DataLayer DiStore.Memory DiStore.SearchLayer

attribute [local instance] Digests.source

theorem holds_all {node : LinkedNode} {place : Bytes16 → Prop}
    (all : ∀ pair ∈ node.records, place pair.key) : ∀ key, node.Holds key → place key := by
  intro key isHeld
  rw [LinkedNode.holds_iff_records] at isHeld
  obtain ⟨pair, isRecord, isKey⟩ := isHeld
  rw [← isKey]
  exact all pair isRecord

theorem crowded_winner16 : WinnerState (.memoryNode 0) (crowded .type16 1) 1 .type16 where
  toHolding := crowded_holding .type16 1
  isData := trivial
  isType := rfl
  fits := by decide +kernel
  marked := by decide +kernel
  distinct := by decide +kernel
  placed := holds_all (by decide +kernel)
  apart := show (1024 : Nat) ≠ 64 by decide
  predKnown := by decide +kernel
  predTagged := Or.inl ⟨rfl, id⟩
  predFits := by decide +kernel
  predMarked := by decide +kernel
  predPlaced := holds_all (by decide +kernel)

/-- A full node of type 16 with one request beside the put. -/
theorem put16_durable :
    Durable (crowded .type16 1) 1 (.fill 120) ((crowded .type16 1).putFor (.memoryNode 0) 0 1
      (Bytes16.fill 120).val (Bytes16.fill 2).val writesDone .type16) :=
  (handover_durable _ _ 0 _ _ _ crowded_winner16 (by decide +kernel) (by decide) rfl rfl).1
    ⟨fun inPlace => absurd inPlace.1 (by decide +kernel), fun _ isTen => (nomatch isTen),
      fun _ isFourteen => (nomatch isFourteen)⟩

/-- Two search nodes of type 10 with three records each, and a request for the first one in
the queue of the thread that puts into the second. -/
def neighbours : ComputeNode :=
  { crowded .type10 0 with
    slist := ((SkipList.empty 64).insert (Bytes16.fill 97).val 1024 .type10 1).insert
      (Bytes16.fill 110).val 2048 .type10 1
    remote := fun remote =>
      if remote = 1024 then
        (LinkedNode.fresh .type10 .zeroed).storeAll 10 (byteOffers 97 3)
      else if remote = 2048 then
        (LinkedNode.fresh .type10 .zeroed).storeAll 10 (byteOffers 110 3)
      else .zeroed
    contexts := fun _ =>
      { ConcurrencyContext.initial with requests := [⟨1, .fill 100, .fill 1⟩] } }

theorem neighbours_winner : WinnerState (.memoryNode 0) neighbours 2 .type10 where
  sound := RemoteHeap.sound_empty _
  predTaken := crowded_taken .type10 0 (show 1024 < 4096 by decide)
  known := by decide +kernel
  isData := trivial
  isType := by decide +kernel
  fits := by decide +kernel
  marked := by decide +kernel
  distinct := by decide +kernel
  placed := holds_all (by decide +kernel)
  apart := by decide +kernel
  predKnown := by decide +kernel
  predTagged := by decide +kernel
  predFits := by decide +kernel
  predMarked := by decide +kernel
  predPlaced := holds_all (by decide +kernel)

/-- The request for the predecessor is answered with success, and its record is in neither
image: the put writes its own node in place and leaves the first slot behind. -/
theorem handed_over_put_lost :
    WinnerState (.memoryNode 0) neighbours 2 .type10 ∧
      (neighbours.putFor (.memoryNode 0) 0 2 (Bytes16.fill 120).val (Bytes16.fill 2).val writesDone
        .type10).replies = [(⟨1, .fill 100, .fill 1⟩, ⟨true, false⟩)] ∧
      ¬ neighbours.StoredAfter (neighbours.putFor (.memoryNode 0) 0 2 (Bytes16.fill 120).val
        (Bytes16.fill 2).val writesDone .type10).node 2 (.fill 100) ∧
      ¬ Durable neighbours 2 (.fill 120) (neighbours.putFor (.memoryNode 0) 0 2
        (Bytes16.fill 120).val (Bytes16.fill 2).val writesDone .type10) := by
  have replies : (neighbours.putFor (.memoryNode 0) 0 2 (Bytes16.fill 120).val (Bytes16.fill 2).val
      writesDone .type10).replies = [(⟨1, .fill 100, .fill 1⟩, ⟨true, false⟩)] := by decide +kernel
  have lost : ¬ neighbours.StoredAfter (neighbours.putFor (.memoryNode 0) 0 2 (Bytes16.fill 120).val
      (Bytes16.fill 2).val writesDone .type10).node 2 (.fill 100) := by decide +kernel
  refine ⟨neighbours_winner, replies, lost, ?_⟩
  intro durable
  have promised := durable.helped (⟨1, .fill 100, .fill 1⟩, ⟨true, false⟩) (by
    rw [replies]
    exact List.mem_cons_self) rfl
  exact lost promised

end DiStore.Cluster.ComputeNode
