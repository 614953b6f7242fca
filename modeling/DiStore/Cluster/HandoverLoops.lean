import DiStore.Cluster.WriteFailures

/-!
Contract: what the loops of a winner gather before anything is written.

Owns: what a winner finds (`WinnerState`), which records count as durable after its put
(`Durable`), and the two images once the whole queue is served (`LoopsDone`).

Does not own: which image is written where (`Cluster.HandoverDurable`).
-/

set_option autoImplicit false

namespace DiStore.Cluster.ComputeNode

open DiStore.Concurrency DiStore.DataLayer DiStore.Memory DiStore.SearchLayer

/-! ### What a winner finds and leaves -/

section Definitions

variable [Digest]

/-- The key is found in the image of the put's node, of one it created, or of its
predecessor. -/
def StoredAfter (before after : ComputeNode) (target : NodeId) (key : Bytes16) : Prop :=
  ∃ searchNode ∈ before.backwardOf target :: resulting before after target,
    ((after.imageOf searchNode).find key.val).isSome

instance (before after : ComputeNode) (target : NodeId) (key : Bytes16) :
    Decidable (before.StoredAfter after target key) := by
  unfold StoredAfter
  infer_instance

/-- The put's own record, and every record whose request was answered with success, is in
remote memory. -/
structure Durable (before : ComputeNode) (target : NodeId) (key : Bytes16) (outcome : PutOutcome) :
    Prop where
  own : before.StoredAfter outcome.node target key
  helped : ∀ answered ∈ outcome.replies, answered.2.succeed = true →
    before.StoredAfter outcome.node target answered.1.tag

/-- The winner's node and its predecessor hold their own keys, within their types. A fake
head holds none. -/
structure WinnerState (source : SegmentSource) (node : ComputeNode) (target : NodeId)
    (type : LinkedNodeType) : Prop extends Holding source node target where
  isData : type.IsData
  isType : (node.slist.nodes target).type = type
  fits : (node.imageOf target).next ≤ type.capacity
  marked : (node.imageOf target).Fingerprinted
  distinct : (node.imageOf target).DistinctKeys
  placed : ∀ key, (node.imageOf target).Holds key → ¬ key.val < (node.slist.nodes target).anchor
  apart : (node.slist.nodes target).dataNode ≠ node.predData target
  predKnown : node.backwardOf target < node.slist.count
  predTagged :
    (node.slist.nodes (node.backwardOf target)).type = .typeHead ∧
        ¬ (node.imageOf (node.backwardOf target)).type.IsData ∨
      (node.slist.nodes (node.backwardOf target)).type.IsData ∧
        (node.imageOf (node.backwardOf target)).type =
          (node.slist.nodes (node.backwardOf target)).type
  predFits : (node.imageOf (node.backwardOf target)).next ≤
    helpCapacity (node.imageOf (node.backwardOf target)).type
  predMarked : (node.imageOf (node.backwardOf target)).Fingerprinted
  predPlaced : ∀ key, (node.imageOf (node.backwardOf target)).Holds key →
    key.val < (node.slist.nodes target).anchor

end Definitions

variable [Digest] {source : SegmentSource} {node : ComputeNode} {thread : ThreadId} {target : NodeId}
variable {type : LinkedNodeType} {key value : Bytes16} {draws : PutDraws}

namespace WinnerState

variable (state : WinnerState source node target type)

include state

theorem real_entries :
    (node.fetchedReal thread target).entries = (node.imageOf target).entries := by
  apply fetchedReal_entries
  · rw [state.isType]
    exact state.isData
  · rw [state.isType]
    exact state.fits

theorem real_next : (node.fetchedReal thread target).next ≤ type.capacity :=
  (next_of_entries state.real_entries).trans_le state.fits

theorem real_marked : (node.fetchedReal thread target).Fingerprinted :=
  fingerprinted_of_entries state.real_entries state.marked

theorem real_records :
    (node.fetchedReal thread target).records = (node.imageOf target).records :=
  records_of_entries state.real_entries

theorem real_distinct : (node.fetchedReal thread target).DistinctKeys := by
  have distinct := state.distinct
  rw [LinkedNode.distinctKeys_iff_records] at distinct ⊢
  rw [state.real_records]
  exact distinct

theorem real_placed (isHeld : (node.fetchedReal thread target).Holds key) :
    ¬ key.val < (node.slist.nodes target).anchor := by
  rw [LinkedNode.holds_iff_records, state.real_records, ← LinkedNode.holds_iff_records] at isHeld
  exact state.placed key isHeld

/-- The transfer of the predecessor is not empty and covers its records. -/
theorem pred_covered :
    sizeofNode (node.slist.nodes (node.backwardOf target)).type ≠ 0 ∧
      pairsOffset + 32 * (node.imageOf (node.backwardOf target)).next ≤
        sizeofNode (node.slist.nodes (node.backwardOf target)).type := by
  have fits := state.predFits
  rcases state.predTagged with ⟨isHead, notData⟩ | ⟨isData, isTag⟩
  · rw [helpCapacity, if_neg notData] at fits
    rw [isHead, Nat.le_zero.mp fits]
    decide
  · rw [helpCapacity, isTag, if_pos isData] at fits
    have covered := pairsOffset_le_sizeofNode isData
    exact ⟨sizeofNode_ne_zero isData, by omega⟩

theorem pred_entries :
    (node.fetchedPred thread target).entries = (node.imageOf (node.backwardOf target)).entries :=
  LinkedNode.entries_overlay state.pred_covered.2

theorem pred_type :
    (node.fetchedPred thread target).type = (node.imageOf (node.backwardOf target)).type :=
  LinkedNode.overlay_type state.pred_covered.1

theorem pred_fits :
    (node.fetchedPred thread target).next ≤ helpCapacity (node.fetchedPred thread target).type := by
  rw [state.pred_type, next_of_entries state.pred_entries]
  exact state.predFits

theorem pred_placed (isHeld : (node.fetchedPred thread target).Holds key) :
    key.val < (node.slist.nodes target).anchor := by
  rw [LinkedNode.holds_iff_records, records_of_entries state.pred_entries,
    ← LinkedNode.holds_iff_records] at isHeld
  exact state.predPlaced key isHeld

theorem pred_ne : node.backwardOf target ≠ target := by
  intro same
  have apart := state.apart
  unfold predData at apart
  rw [same] at apart
  exact apart rfl

end WinnerState

/-! ### Keys on their side of the anchor -/

/-- A node's keys stay at or above the anchor when it stores such a key. -/
theorem store_placed {real : LinkedNode} {anchor : Str} (capacity : Nat) (value : Bytes16)
    (placed : ∀ held, real.Holds held → ¬ held.val < anchor) (above : ¬ key.val < anchor) :
    ∀ held, (real.store capacity key.val value.val).2.Holds held → ¬ held.val < anchor := by
  intro held isHeld
  obtain ⟨added, grown, isOffer, _⟩ := store_grows real capacity key value
  rw [grown, LinkedNode.holds_appendAll_iff] at isHeld
  rcases isHeld with before | ⟨pair, isMember, isKey⟩
  · exact placed held before
  · rw [(isOffer pair isMember).1] at isKey
    rw [← isKey]
    exact above

theorem serve_real_placed {answer : Bool → Option Reply} (truthful : Truthful answer) (capacity : Nat)
    (pred : LinkedNode) {real : LinkedNode} {anchor : Str}
    (placed : ∀ held, real.Holds held → ¬ held.val < anchor) (requests : List ConcurrencyRequest) :
    ∀ held, (serve answer capacity anchor pred real requests).real.Holds held → ¬ held.val < anchor := by
  intro held isHeld
  obtain ⟨_, _, work⟩ := serve_served truthful capacity anchor pred real requests
  rw [work.realGrows, LinkedNode.holds_appendAll_iff] at isHeld
  rcases isHeld with before | ⟨pair, isMember, isKey⟩
  · exact placed held before
  · obtain ⟨answered, _, _, above, isOffer⟩ := work.realOffers pair isMember
    rw [← isKey, ← isOffer]
    exact above

theorem serve_pred_placed {answer : Bool → Option Reply} (truthful : Truthful answer) (capacity : Nat)
    (real : LinkedNode) {pred : LinkedNode} {anchor : Str}
    (placed : ∀ held, pred.Holds held → held.val < anchor) (requests : List ConcurrencyRequest) :
    ∀ held, (serve answer capacity anchor pred real requests).pred.Holds held → held.val < anchor := by
  intro held isHeld
  obtain ⟨_, _, work⟩ := serve_served truthful capacity anchor pred real requests
  rw [work.predGrows, LinkedNode.holds_appendAll_iff] at isHeld
  rcases isHeld with before | ⟨pair, isMember, isKey⟩
  · exact placed held before
  · obtain ⟨answered, _, _, below, isOffer⟩ := work.predOffers pair isMember
    rw [← isKey, ← isOffer]
    exact below

/-! ### The loops of a put that follows its plan -/

/-- The records a node is to take: the put's own and the requests for the node. -/
def ownOffers (node : ComputeNode) (thread : ThreadId) (target : NodeId) (key value : Bytes16) : List KV :=
  ⟨key, value⟩ :: node.hereOffers thread target

/-- The keys of a node before its put. -/
def knownKeys (node : ComputeNode) (target : NodeId) : List Bytes16 :=
  (node.imageOf target).records.map KV.key

/-- The records that are new to the node. -/
def newOffers (node : ComputeNode) (thread : ThreadId) (target : NodeId) (key value : Bytes16) : List KV :=
  LinkedNode.newRecords (node.knownKeys target) (node.ownOffers thread target key value)

/-- Each new record has fewer than `leftCap` records of the node below it. -/
def NewGoLeft (node : ComputeNode) (thread : ThreadId) (target : NodeId) (key value : Bytes16)
    (leftCap : Nat) : Prop :=
  ∀ pair ∈ node.newOffers thread target key value,
    (node.knownKeys target ++ (node.newOffers thread target key value).map KV.key).countP
      (fun other => other.val < pair.key.val) < leftCap

/-- Both images once the loops are through with the queue: the node has taken every new
record, and whoever was told of success is in the image of its side. -/
structure LoopsDone (node : ComputeNode) (thread : ThreadId) (target : NodeId) (key value : Bytes16)
    (added : List KV) (replies : List (ConcurrencyRequest × Reply)) (pred real : LinkedNode) : Prop where
  grown : real = (node.fetchedReal thread target).appendAll added
  keys : (added.map KV.key).Perm ((node.newOffers thread target key value).map KV.key)
  marked : real.Fingerprinted
  distinct : real.DistinctKeys
  realPlaced : ∀ held, real.Holds held → ¬ held.val < (node.slist.nodes target).anchor
  predPlaced : ∀ held, pred.Holds held → held.val < (node.slist.nodes target).anchor
  predType : pred.type = (node.imageOf (node.backwardOf target)).type
  predFits : pred.next ≤ helpCapacity pred.type
  own : (real.find key.val).isSome
  told : ∀ pair ∈ added, pair.key = key ∨
    ∃ answered ∈ replies, answered.2.succeed = true ∧ answered.1.tag = pair.key
  answers : ∀ answered ∈ replies, answered.2.succeed = true →
    if answered.1.tag.val < (node.slist.nodes target).anchor then (pred.find answered.1.tag.val).isSome
    else (real.find answered.1.tag.val).isSome ∧
      answered.1.tag ∈ (node.ownOffers thread target key value).map KV.key

omit [Digest] in
theorem aboveOffers_perm {anchor : Str} {left right : List ConcurrencyRequest} (perm : left.Perm right) :
    (aboveOffers anchor left).Perm (aboveOffers anchor right) :=
  (perm.filter _).map offerOf

/-- One loop over the queue, in any order, with room for all of it. -/
theorem loopsDone_serve (state : WinnerState source node target type)
    (ownAbove : ¬ key.val < (node.slist.nodes target).anchor) {answer : Bool → Option Reply}
    (truthful : Truthful answer) {room : Nat} {order : List ConcurrencyRequest}
    (perm : order.Perm (node.contexts thread).requests)
    (fits : LinkedNode.FitsAll room (⟨key, value⟩ :: aboveOffers (node.slist.nodes target).anchor order)
      (node.fetchedReal thread target))
    {pred real : LinkedNode} {replies : List (ConcurrencyRequest × Reply)}
    {left : List ConcurrencyRequest}
    (whole : serve answer room (node.slist.nodes target).anchor (node.fetchedPred thread target)
      ((node.fetchedReal thread target).store room key.val value.val).2 order = ⟨pred, real, left, replies⟩) :
    ∃ added, LoopsDone node thread target key value added replies pred real := by
  have marked := @state.real_marked _ source node thread target type
  have known : (node.fetchedReal thread target).records.map KV.key = node.knownKeys target := by
    rw [state.real_records]
    rfl
  have offers : (⟨key, value⟩ :: aboveOffers (node.slist.nodes target).anchor order : List KV).Perm
      (node.ownOffers thread target key value) := (aboveOffers_perm perm).cons _
  have isReal := serve_real truthful room (node.slist.nodes target).anchor (node.fetchedPred thread target)
    ((node.fetchedReal thread target).store room key.val value.val).2 order
  have tells := @serve_tells_all _ _ (node.fetchedPred thread target) _ _ _ _ truthful.success fits.2
  have stored : ((node.fetchedReal thread target).store room key.val value.val).1 = true := by
    rw [LinkedNode.store_fst]
    exact decide_eq_true fits.1
  have found := LinkedNode.find_store_isSome stored
  have realPlaced := serve_real_placed truthful room (node.fetchedPred thread target)
    (store_placed room value (fun _ => @state.real_placed _ source node thread target type _) ownAbove) order
  have predPlaced := serve_pred_placed truthful room
    ((node.fetchedReal thread target).store room key.val value.val).2
    (fun _ => @state.pred_placed _ source node thread target type _) order
  obtain ⟨addedPred, addedReal, work⟩ := serve_served truthful room (node.slist.nodes target).anchor
    (node.fetchedPred thread target) ((node.fetchedReal thread target).store room key.val value.val).2 order
  rw [whole] at isReal tells realPlaced predPlaced work
  have grown : real = (node.fetchedReal thread target).appendAll (LinkedNode.newRecords
      (node.knownKeys target) (⟨key, value⟩ :: aboveOffers (node.slist.nodes target).anchor order)) := by
    rw [← known, ← LinkedNode.storeAll_eq_appendAll _ marked fits]
    exact isReal
  refine ⟨_, grown, LinkedNode.newRecords_perm _ offers, ?_, ?_, realPlaced, predPlaced, ?_, ?_, ?_, ?_, ?_⟩
  · rw [grown]
    exact marked.appendAll _
  · rw [grown, ← known]
    exact (@state.real_distinct _ source node thread target type).appendAll _
  · have predGrows : pred = _ := work.predGrows
    rw [predGrows, LinkedNode.appendAll_type]
    exact state.pred_type
  · have predRoom := work.predRoom
    have predGrows : pred = _ := work.predGrows
    have predFits := @state.pred_fits _ source node thread target type
    rw [predGrows, LinkedNode.appendAll_next, LinkedNode.appendAll_type]
    exact predRoom.trans (max_le predFits le_rfl)
  · have realGrows : real = _ := work.realGrows
    rw [realGrows]
    exact LinkedNode.find_appendAll_isSome _ found
  · intro pair isMember
    rcases List.mem_cons.mp (LinkedNode.newRecords_subset _ _ isMember) with isOwn | isHanded
    · left
      rw [isOwn]
    · right
      obtain ⟨request, inOrder, above, isOffer⟩ := mem_aboveOffers.mp isHanded
      refine ⟨_, tells request inOrder above, rfl, ?_⟩
      rw [← isOffer]
      rfl
  · intro answered inReplies succeed
    obtain ⟨inOrder, _, placeOf⟩ := work.answers answered inReplies
    have place := placeOf succeed
    split
    next below =>
      rw [if_pos below] at place
      exact place.2
    next above =>
      rw [if_neg above] at place
      refine ⟨place, ?_⟩
      rw [ownOffers, List.map_cons]
      apply List.mem_cons_of_mem
      exact List.mem_map_of_mem (mem_aboveOffers.mpr ⟨_, perm.mem_iff.mp inOrder, above, rfl⟩)

section Plans

variable (state : WinnerState source node target type)
variable (ownAbove : ¬ key.val < (node.slist.nodes target).anchor)
variable {start : ComputeNode} {done : Bool} {earlier : List (ConcurrencyRequest × Reply)}
variable (resumes : Resumes node start thread target key value type done earlier)

include state ownAbove resumes

/-- The loop of `put10` has room for any queue. -/
theorem loopsDone_morph (sameSlist : start.slist = node.slist) (isTen : type = .type10)
    (few : (node.contexts thread).requests.length ≤ 4) :
    ∃ added, LoopsDone node thread target key value added
      (earlier ++ (start.morphWork thread target key.val value.val done).replies)
      (start.morphWork thread target key.val value.val done).pred
      (start.morphWork thread target key.val value.val done).real := by
  have small : type.capacity = 10 := by rw [isTen]; rfl
  obtain ⟨order, perm, _, whole⟩ := resumes morphAnswer morphAnswer_truthful 16 (by omega)
  have isWork : serve morphAnswer 16 (node.slist.nodes target).anchor (start.buffers thread 0)
      (if done then start.buffers thread 1
        else ((start.buffers thread 1).store 16 key.val value.val).2)
      (start.contexts thread).requests = start.morphWork thread target key.val value.val done := by
    unfold morphWork morphOthers
    rw [sameSlist]
  simp only [isWork] at whole
  have next := @state.real_next _ source node thread target type
  have length := perm.length_eq
  have offers := @length_aboveOffers_le (node.slist.nodes target).anchor order
  apply loopsDone_serve state ownAbove morphAnswer_truthful perm _ whole
  apply LinkedNode.fitsAll_of_room
  rw [List.length_cons]
  omega

/-- `help_others` empties the queue into a node with room for all that is pending. -/
theorem loopsDone_help (deferred : Deferred node start thread target type done) {room : Nat}
    (grows : type.capacity < room)
    (enough : type.capacity + ((start.contexts thread).requests.length + (if done then 0 else 1)) ≤ room)
    {work : Handover}
    (isWork : helpOthers room (node.slist.nodes target).anchor (start.buffers thread 0)
      (if done then start.buffers thread 1
        else ((start.buffers thread 1).store room key.val value.val).2)
      (start.contexts thread).requests = work) :
    ∃ added, LoopsDone node thread target key value added (earlier ++ work.replies) work.pred work.real := by
  obtain ⟨order, perm, _, whole⟩ := resumes helpAnswer helpAnswer_truthful room grows.le
  unfold helpOthers at isWork
  simp only [isWork] at whole
  have next := @state.real_next _ source node thread target type
  have bounded := deferred.bounded
  have bounds := LinkedNode.store_next_bounds (start.buffers thread 1) room key.val value.val
  have offers := @length_aboveOffers_le (node.slist.nodes target).anchor (start.contexts thread).requests
  have emptied : work.requests = [] := by
    rw [← isWork]
    apply helpOthers_empty_iff.mpr
    apply LinkedNode.fitsAll_of_room
    cases done with
    | false =>
        simp only [Bool.false_eq_true, if_false] at enough ⊢
        omega
    | true =>
        simp only [if_true] at enough ⊢
        omega
  apply loopsDone_serve state ownAbove helpAnswer_truthful perm _ whole
  refine ⟨by omega, ?_⟩
  apply helpOthers_empty_iff.mp
  unfold helpOthers
  rw [whole]
  exact emptied

end Plans

/-- What `help_others` adds is pending. -/
theorem help_next_le {start : ComputeNode} {done : Bool}
    (deferred : Deferred node start thread target type done) {room : Nat} {work : Handover} {anchor : Str}
    (isWork : helpOthers room anchor (start.buffers thread 0)
      (if done then start.buffers thread 1
        else ((start.buffers thread 1).store room key.val value.val).2)
      (start.contexts thread).requests = work) :
    work.real.next ≤ type.capacity + ((start.contexts thread).requests.length + (if done then 0 else 1)) := by
  have bounded := deferred.bounded
  have bounds := LinkedNode.store_next_bounds (start.buffers thread 1) room key.val value.val
  unfold helpOthers at isWork
  obtain ⟨addedPred, addedReal, served⟩ := @serve_served _ _ helpAnswer_truthful room anchor
    (start.buffers thread 0) (if done then start.buffers thread 1
      else ((start.buffers thread 1).store room key.val value.val).2) (start.contexts thread).requests
  have length := served.length
  rw [isWork] at served
  rw [served.realGrows, LinkedNode.appendAll_next]
  cases done with
  | false =>
      simp only [Bool.false_eq_true, if_false] at length ⊢
      omega
  | true =>
      simp only [if_true] at length ⊢
      omega

/-- The stack node of a split takes the records that the node itself would take. -/
theorem splitWork_entries (start : ComputeNode) (done : Bool)
    (small : (start.buffers thread 1).next ≤ 16) :
    let staging := start.splitWork thread target key.val value.val done
    let work := helpOthers bufferCapacity (start.slist.nodes target).anchor (start.buffers thread 0)
      (if done then start.buffers thread 1
        else ((start.buffers thread 1).store bufferCapacity key.val value.val).2)
      (start.contexts thread).requests
    staging.pred = work.pred ∧ staging.real.entries = work.real.entries ∧
      staging.requests = work.requests ∧ staging.replies = work.replies := by
  have copied := bufferNode_entries small
  unfold splitWork helpOthers
  apply serve_congr_entries
  cases done with
  | false => exact (store_congr_entries copied bufferCapacity key value).2
  | true => exact copied

/-- The outcome of a put that followed `plan`. -/
def planned (source : SegmentSource) (start : ComputeNode) (thread : ThreadId) (target : NodeId)
    (key value : Bytes16) (draws : PutDraws) (done : Bool) (earlier : List (ConcurrencyRequest × Reply))
    (plan : PutPlan) : PutOutcome :=
  let outcome := start.followPlan source thread target key.val value.val draws done plan
  ⟨outcome.ret, earlier ++ outcome.replies, outcome.node.release thread target⟩

/-! ### What the loops gathered -/

/-- No chunk in reserve holds, at any pair, a key that ends like one of the offers. -/
def CleanReserve (source : SegmentSource) (node : ComputeNode) (thread : ThreadId) (target : NodeId)
    (key value : Bytes16) : Prop :=
  ∀ remote, RemoteHeap.Reserve source node.heap remote → ∀ slot,
    ∀ offer ∈ node.ownOffers thread target key value,
      ((node.remote remote).pairs slot).key.val.drop 4 ≠ offer.key.val.drop 4

namespace LoopsDone

variable {added : List KV} {replies : List (ConcurrencyRequest × Reply)} {pred real : LinkedNode}
variable (loops : LoopsDone node thread target key value added replies pred real)

include loops

theorem length : added.length = (node.newOffers thread target key value).length := by
  rw [← @List.length_map _ _ added KV.key, loops.keys.length_eq, List.length_map]

theorem next : real.next = (node.fetchedReal thread target).next + added.length := by
  rw [loops.grown, LinkedNode.appendAll_next]

theorem records_next (state : WinnerState source node target type) :
    (node.knownKeys target).length + (node.newOffers thread target key value).length = real.next := by
  rw [loops.next, loops.length, next_of_entries state.real_entries, knownKeys, List.length_map,
    LinkedNode.length_records]

/-- A put that does not fit in place leaves its node full. -/
theorem le_next (state : WinnerState source node target type)
    (fits : ¬ node.FitsInPlace thread target key value type) : type.capacity ≤ real.next := by
  have marked := @state.real_marked _ source node thread target type
  obtain ⟨room, isRoom⟩ : ∃ room, room = (node.fetchedReal thread target).next +
    (node.ownOffers thread target key value).length + type.capacity := ⟨_, rfl⟩
  have roomy := LinkedNode.fitsAll_of_room (node.ownOffers thread target key value)
    (show (node.fetchedReal thread target).next + _ ≤ room by omega)
  have full := LinkedNode.le_storeAll_next (show type.capacity ≤ room by omega) _ fits
  change type.capacity ≤ ((node.fetchedReal thread target).storeAll room
    (node.ownOffers thread target key value)).next at full
  rw [LinkedNode.storeAll_eq_appendAll _ marked roomy, LinkedNode.appendAll_next, state.real_records] at full
  rw [loops.next, loops.length]
  exact full

/-- What is new to the node is its own or was acknowledged, and was offered. -/
theorem offered {pair : KV} (isNew : pair ∈ added) :
    pair.key ∈ (node.newOffers thread target key value).map KV.key :=
  loops.keys.mem_iff.mp (List.mem_map_of_mem isNew)

theorem held {pair : KV} (isNew : pair ∈ added) : real.Holds pair.key := by
  rw [loops.grown, LinkedNode.holds_appendAll_iff]
  exact Or.inr ⟨pair, isNew, rfl⟩

theorem not_in_pred {pair : KV} (isNew : pair ∈ added) : pred.find pair.key.val = none := by
  by_contra found
  have inPred := LinkedNode.holds_of_find (Option.isSome_iff_ne_none.mpr found)
  exact loops.realPlaced _ (loops.held isNew) (loops.predPlaced _ inPred)

/-- The predecessor's image after its batch. -/
theorem pred_after (state : WinnerState source node target type) (remote : RemotePointer) :
    (LinkedNode.overlay (sizeofNode pred.type) { pred with rlink := remote }
      (node.imageOf (node.backwardOf target))).entries = pred.entries := by
  have fits := loops.predFits
  by_cases isData : pred.type.IsData
  · have covered := pairsOffset_le_sizeofNode isData
    rw [helpCapacity, if_pos isData] at fits
    apply LinkedNode.entries_overlay
    change pairsOffset + 32 * pred.next ≤ _
    omega
  · -- neither image has a record
    have before := state.predFits
    rw [← loops.predType, helpCapacity, if_neg isData, Nat.le_zero] at before
    rw [helpCapacity, if_neg isData, Nat.le_zero] at fits
    have after : (LinkedNode.overlay (sizeofNode pred.type) { pred with rlink := remote }
        (node.imageOf (node.backwardOf target))).next = 0 := by
      by_cases empty : sizeofNode pred.type = 0
      · rw [empty, LinkedNode.overlay_empty]
        exact before
      · rw [LinkedNode.overlay_next empty]
        exact fits
    rw [List.eq_nil_of_length_eq_zero (LinkedNode.length_entries.trans after),
      List.eq_nil_of_length_eq_zero (LinkedNode.length_entries.trans fits)]

/-- Both images in remote memory make the put durable. -/
theorem durable {after : ComputeNode} {ret : Bool}
    (predStored : ∀ held : Bytes16, (pred.find held.val).isSome → node.StoredAfter after target held)
    (realStored : ∀ held ∈ (node.ownOffers thread target key value).map KV.key,
      (real.find held.val).isSome → node.StoredAfter after target held) :
    Durable node target key ⟨ret, replies, after⟩ where
  own := realStored key (List.mem_map_of_mem List.mem_cons_self) loops.own
  helped answered inReplies succeed := by
    have place := loops.answers answered inReplies succeed
    by_cases below : answered.1.tag.val < (node.slist.nodes target).anchor
    · rw [if_pos below] at place
      exact predStored _ place
    · rw [if_neg below] at place
      exact realStored _ place.2 place.1

/-- A new record that is nowhere was promised to somebody. -/
theorem not_durable {after : ComputeNode} {ret : Bool} {pair : KV} (isNew : pair ∈ added)
    (lost : ¬ node.StoredAfter after target pair.key) :
    ¬ Durable node target key ⟨ret, replies, after⟩ := by
  intro durable
  rcases loops.told pair isNew with isOwn | ⟨answered, inReplies, succeed, isTag⟩
  · rw [isOwn] at lost
    exact lost durable.own
  · rw [← isTag] at lost
    exact lost (durable.helped answered inReplies succeed)

/-- A clean chunk does not complete a record that its transfer cuts off. -/
theorem clean_of_new (clean : CleanReserve source node thread target key value) {remote : RemotePointer}
    (fresh : RemoteHeap.Reserve source node.heap remote) {pair : KV} (isNew : pair ∈ added) :
    ∀ slot, ((node.remote remote).pairs slot).key.val.drop 4 ≠ pair.key.val.drop 4 := by
  intro slot
  obtain ⟨offer, isOffer, sameKey⟩ := List.mem_map.mp (loops.offered isNew)
  rw [← sameKey]
  exact clean remote fresh slot offer (LinkedNode.newRecords_subset _ _ isOffer)

end LoopsDone

end DiStore.Cluster.ComputeNode
