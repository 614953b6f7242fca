import DiStore.Cluster.HandoverLoops

/-!
Contract: the bytes that the batch of a put posts, and which records they have.

Owns: the records that a plan takes from the queue, the image it has of them, the sizes of the
writes it posts, and when those reach every record that the plan has taken.

Does not own: whether the batch completes (`Cluster.PutReports`), and the images after it
(`Cluster.HandoverDurable`).
-/

set_option autoImplicit false

namespace DiStore.Cluster

open DiStore.Concurrency DiStore.DataLayer DiStore.Library DiStore.Memory DiStore.SearchLayer

/-- The sizes of the writes that a put has posted, in the order in which it posted them. -/
def PutOutcome.postedSizes (outcome : PutOutcome) (before : ComputeNode) : List Nat :=
  ((ComputeNode.gained before.posted outcome.node.posted).map Prod.snd).reverse

/-- A record with the key is among the `leftCap` least, or among the first `rightCap` of the
others. -/
def SplitCarries [Digest] (image : LinkedNode) (leftCap rightCap : Nat) (key : Bytes16) : Prop :=
  ∃ index < image.next, image.matchesAt key.val index = true ∧
    (rankAt image index < leftCap ∨
      (List.range index).countP (fun before => leftCap ≤ rankAt image before) < rightCap)

namespace ComputeNode

section Definitions

variable [Digest] (node : ComputeNode) (thread : ThreadId) (target : NodeId) (key value : Bytes16)
variable (type : LinkedNodeType)

/-- The fetched image with the put's own record and the requests stored, in `room` pairs. -/
def plannedImage (room : Nat) : LinkedNode :=
  (node.fetchedReal thread target).storeAll room (⟨key, value⟩ :: node.plannedOffers thread target key value type)

/-- Those of the records that it takes. -/
def plannedTaken (room : Nat) : List KV :=
  LinkedNode.taken room (⟨key, value⟩ :: node.plannedOffers thread target key value type)
    (node.fetchedReal thread target)

/-- A split reaches every record it takes: `rightCap` records of the right half are posted. -/
def SplitReaches (leftCap rightCap : Nat) : Prop :=
  ∀ pair ∈ node.plannedTaken thread target key value type bufferCapacity,
    SplitCarries (node.plannedImage thread target key value type bufferCapacity) leftCap rightCap pair.key

/-- The batch has the bytes of every record that the plan takes: `morph_node` chooses a large
enough type for a node of type 10, and the two splits whose right half is posted with ten
records leave no record they have taken behind those. -/
structure BatchReaches : Prop where
  morph : type = .type10 →
    (node.plannedImage thread target key value type 16).next ≤
      (morphNode (node.plannedImage thread target key value type 16)).capacity
  split12 : type = .type12 → ¬ node.LeavesAtMost thread target key value type 4 →
    node.SplitReaches thread target key value type 9 10
  split14 : type = .type14 → ¬ node.LeavesAtMost thread target key value type 2 →
    node.SplitReaches thread target key value type 8 10

end Definitions

variable [Digest] {source : SegmentSource} {thread : ThreadId} {target : NodeId}
variable {type : LinkedNodeType} {node start : ComputeNode} {key value : Bytes16} {draws : PutDraws}

/-! ### What a plan serves -/

/-- What `put10` answers, and what the other plans answer. -/
def answerOf : PutPlan → Bool → Option Reply
  | .morph => morphAnswer
  | _ => helpAnswer

omit [Digest] in
theorem answerOf_truthful (plan : PutPlan) : Truthful (answerOf plan) := by
  cases plan with
  | morph => exact morphAnswer_truthful
  | eager => exact helpAnswer_truthful
  | split => exact helpAnswer_truthful

/-- The loop over the queue that a plan begins with. -/
def planWork (start : ComputeNode) (thread : ThreadId) (target : NodeId) (key value : Bytes16) (done : Bool)
    (plan : PutPlan) : Handover :=
  serve (answerOf plan) plan.room (start.slist.nodes target).anchor (start.buffers thread 0)
    (if done then start.buffers thread 1 else ((start.buffers thread 1).store plan.room key.val value.val).2)
    (start.contexts thread).requests

/-- What the plan's loop comes to, with all that was served before it. -/
structure PlanServes (node : ComputeNode) (thread : ThreadId) (target : NodeId) (key value : Bytes16)
    (type : LinkedNodeType) (room : Nat) (work : Handover) (replies : List (ConcurrencyRequest × Reply)) :
    Prop where
  real : work.real = node.plannedImage thread target key value type room
  told : ∀ pair, pair ∈ node.plannedTaken thread target key value type room ↔ pair = ⟨key, value⟩ ∨
    ∃ answered ∈ replies, answered.2.succeed = true ∧
      ¬ answered.1.tag.val < (node.slist.nodes target).anchor ∧ offerOf answered.1 = pair
  below : ∀ answered ∈ replies, answered.2.succeed = true →
    answered.1.tag.val < (node.slist.nodes target).anchor →
      work.pred.CarriedIn (sizeofNode work.pred.type) answered.1.tag

theorem planServes {done : Bool} {earlier : List (ConcurrencyRequest × Reply)} (plan : PutPlan)
    (room : type.capacity < plan.room) (bounded : (node.fetchedReal thread target).next ≤ type.capacity)
    (sameSlist : start.slist = node.slist)
    (resumes : Resumes node start thread target key value type done earlier) :
    PlanServes node thread target key value type plan.room
      (start.planWork thread target key value done plan)
      (earlier ++ (start.planWork thread target key value done plan).replies) := by
  obtain ⟨order, _, offers, whole⟩ := resumes (answerOf plan) (answerOf_truthful plan) plan.room room.le
  have isWork : serve (answerOf plan) plan.room (node.slist.nodes target).anchor (start.buffers thread 0)
      (if done then start.buffers thread 1
        else ((start.buffers thread 1).store plan.room key.val value.val).2)
      (start.contexts thread).requests = start.planWork thread target key value done plan := by
    unfold planWork
    rw [sameSlist]
  simp only [isWork] at whole
  generalize start.planWork thread target key value done plan = work at whole
  have ownRoom : (node.fetchedReal thread target).next < plan.room := bounded.trans_lt room
  constructor
  · have stored := serve_real (answerOf_truthful plan) plan.room (node.slist.nodes target).anchor
      (node.fetchedPred thread target)
      ((node.fetchedReal thread target).store plan.room key.val value.val).2 order
    rw [whole, offers] at stored
    exact stored
  · intro pair
    have isTaken := @mem_taken_iff _ _ (node.fetchedPred thread target)
      ((node.fetchedReal thread target).store plan.room key.val value.val).2 plan.room
      (node.slist.nodes target).anchor order (answerOf_truthful plan) pair
    rw [whole, offers] at isTaken
    rw [plannedTaken, LinkedNode.taken, if_pos ownRoom, List.mem_cons, isTaken]
  · intro answered isReply succeed below
    have inWhole : answered ∈ (serve (answerOf plan) plan.room (node.slist.nodes target).anchor
        (node.fetchedPred thread target)
        ((node.fetchedReal thread target).store plan.room key.val value.val).2 order).replies := by
      rw [whole]
      exact isReply
    have predRoom := pred_room_of_acknowledged inWhole succeed below
    obtain ⟨addedPred, addedReal, served⟩ := serve_served (answerOf_truthful plan) plan.room
      (node.slist.nodes target).anchor (node.fetchedPred thread target)
      ((node.fetchedReal thread target).store plan.room key.val value.val).2 order
    have found := (served.answers answered inWhole).2.2 succeed
    have grown := served.predGrows
    have within := served.predRoom
    rw [whole] at found grown
    rw [if_pos below] at found
    have sameType : work.pred.type = (node.fetchedPred thread target).type := by
      change work.pred = _ at grown
      rw [grown, LinkedNode.appendAll_type]
    have isData : work.pred.type.IsData := sameType ▸ found.1
    have isFound := found.2
    rw [LinkedNode.find_isSome_eq, Option.isSome_iff_exists] at isFound
    rcases isFound with ⟨index, atIndex⟩
    rcases LinkedNode.findIndex_eq_some_iff.mp atIndex with ⟨bound, isMatch, _⟩
    apply (LinkedNode.carriedIn_sizeofNode_iff isData).mpr
    refine ⟨index, bound, isMatch, bound.trans_le ?_⟩
    change work.pred = _ at grown
    rw [max_eq_right predRoom.le, helpCapacity, if_pos found.1] at within
    rw [sameType]
    rw [grown, LinkedNode.appendAll_next]
    exact within

/-- A plan answers what its loop does, whatever becomes of its batch. -/
theorem followPlan_replies (start : ComputeNode) (small : (start.buffers thread 1).next ≤ 16) (key value : Bytes16)
    (draws : PutDraws) (done : Bool) (plan : PutPlan) :
    (start.followPlan source thread target key.val value.val draws done plan).replies =
      (start.planWork thread target key value done plan).replies := by
  cases plan with
  | morph => rfl
  | eager =>
      unfold followPlan eagerMorph
      simp only
      split <;> rfl
  | split leftCap leftType rightType leftArgument rightArgument =>
      obtain ⟨_, _, _, sameReplies⟩ := @splitWork_entries _ thread target key value start done small
      refine Eq.trans ?_ sameReplies
      unfold followPlan splitPath
      simp only
      split <;> rfl

/-! ### What a batch posts -/

omit [Digest] in
theorem postedSizes_eq {outcome : PutOutcome} {before : ComputeNode} {new : List (RemotePointer × Nat)}
    {sizes : List Nat} (isPosted : outcome.node.posted = new ++ before.posted)
    (isSizes : (new.map Prod.snd).reverse = sizes) : outcome.postedSizes before = sizes := by
  unfold PutOutcome.postedSizes
  rw [isPosted, gained_append, isSizes]

/-- The predecessor and one image are posted. -/
structure PostsNode (outcome : PutOutcome) (before : ComputeNode) (thread : ThreadId) (work : Handover)
    (chosen : LinkedNodeType) : Prop where
  sizes : outcome.postedSizes before = [sizeofNode work.pred.type, sizeofNode chosen]
  pred : (outcome.node.buffers thread 0).entries = work.pred.entries
  real : (outcome.node.buffers thread 1).entries = work.real.entries

/-- The predecessor and two images are posted. -/
structure PostsHalves (outcome : PutOutcome) (before : ComputeNode) (thread : ThreadId) (work : Handover)
    (left right : LinkedNode) (leftArgument rightArgument : LinkedNodeType) : Prop where
  sizes : outcome.postedSizes before =
    [sizeofNode work.pred.type, sizeofNode leftArgument, sizeofNode rightArgument]
  pred : (outcome.node.buffers thread 0).entries = work.pred.entries
  left : (outcome.node.buffers thread 1).entries = left.entries
  right : (outcome.node.buffers thread 2).entries = right.entries

omit [Digest] in
theorem writeBackMorphed_posted (node : ComputeNode) (thread : ThreadId) (target : NodeId)
    (pred real : LinkedNode) (requests : List ConcurrencyRequest) :
    let staged := node.staged thread pred real requests
    let after := (staged.writeBackMorphed source thread target .done).2
    after.posted = [((staged.allocate source thread (sizeofNode real.type)).1, sizeofNode real.type),
        (staged.predData target, sizeofNode pred.type)] ++ node.posted ∧
      (after.buffers thread 0).entries = pred.entries ∧ (after.buffers thread 1).entries = real.entries := by
  have isPred : (node.staged thread pred real requests).buffers thread 0 = pred := by
    simp [staged, setSlot, setRequests]
  have isReal : (node.staged thread pred real requests).buffers thread 1 = real := by
    simp [staged, setSlot, setRequests]
  intro staged after
  have isAfter : after.posted = [((staged.allocate source thread (sizeofNode (staged.buffers thread 1).type)).1,
        sizeofNode (staged.buffers thread 1).type),
      (staged.predData target, sizeofNode (staged.buffers thread 0).type)] ++ staged.posted := rfl
  have buffers : after.buffers = Function.update staged.buffers thread (Function.update (staged.buffers thread) 0
      { staged.buffers thread 0 with
        rlink := (staged.allocate source thread (sizeofNode (staged.buffers thread 1).type)).1 }) := rfl
  rw [isAfter, buffers, isPred, isReal, Function.update_self, Function.update_self,
    Function.update_of_ne Nat.one_ne_zero, isReal]
  exact ⟨rfl, rfl, rfl⟩

/-- `put10` posts the predecessor and the node as morphed. -/
theorem morphPath_posts (start : ComputeNode) (thread : ThreadId) (target : NodeId) (key value : Bytes16)
    (isDone : draws.batch = .done) (done : Bool) :
    PostsNode (start.morphPath source thread target key.val value.val draws done) start thread
      (start.planWork thread target key value done .morph)
      (morphNode (start.planWork thread target key value done .morph).real) := by
  have isWork : start.morphWork thread target key.val value.val done =
      start.planWork thread target key value done .morph := rfl
  unfold morphPath
  rw [isWork, isDone]
  generalize start.planWork thread target key value done .morph = work
  obtain ⟨posted, isPred, isReal⟩ := @writeBackMorphed_posted source start thread target work.pred
    (sealedAs (morphNode work.real) work.real) work.requests
  exact ⟨postedSizes_eq posted rfl, isPred, isReal⟩

/-- So does `eager_morph`. -/
theorem eagerMorph_posts (start : ComputeNode) (thread : ThreadId) (target : NodeId) (key value : Bytes16)
    (isDone : draws.batch = .done) (done : Bool) :
    PostsNode (start.eagerMorph source thread target key.val value.val draws done) start thread
      (start.planWork thread target key value done .eager) .type16 := by
  have isWork : start.eagerWork thread target key.val value.val done =
      start.planWork thread target key value done .eager := rfl
  unfold eagerMorph
  rw [isWork, isDone]
  generalize start.planWork thread target key value done .eager = work
  obtain ⟨posted, isPred, isReal⟩ := @writeBackMorphed_posted source start thread target work.pred
    (sealedAs .type16 work.real) work.requests
  simp only
  split
  next => exact ⟨postedSizes_eq posted rfl, isPred, isReal⟩
  next =>
    refine ⟨postedSizes_eq posted rfl, ?_, ?_⟩
    · simp only [setSlot, setDataNode, setType, setSlist, Function.update_self]
      exact isPred
    · simp only [setSlot, setDataNode, setType, setSlist, Function.update_self]
      rw [Function.update_of_ne Nat.one_ne_zero]
      exact isReal

omit [Digest] in
theorem writeBackSplitted_posted (node : ComputeNode) (thread : ThreadId) (target : NodeId)
    (pred left right : LinkedNode) (requests : List ConcurrencyRequest)
    (leftArgument rightArgument : LinkedNodeType) :
    let staged := node.halvesStaged thread pred left right requests
    let after := (staged.writeBackSplitted source thread target leftArgument rightArgument .done).2
    (∃ l r, after.posted = [(r, sizeofNode rightArgument), (l, sizeofNode leftArgument),
        (staged.predData target, sizeofNode pred.type)] ++ node.posted) ∧
      (after.buffers thread 0).entries = pred.entries ∧ (after.buffers thread 1).entries = left.entries ∧
        (after.buffers thread 2).entries = right.entries := by
  have isPred : (node.halvesStaged thread pred left right requests).buffers thread 0 = pred := by
    simp [halvesStaged, staged, setSlot, setRequests]
  have isLeft : (node.halvesStaged thread pred left right requests).buffers thread 1 = left := by
    simp [halvesStaged, staged, setSlot, setRequests]
  have isRight : (node.halvesStaged thread pred left right requests).buffers thread 2 = right := by
    simp [halvesStaged, staged, setSlot, setRequests]
  intro staged after
  obtain ⟨l, r, isPosted, isBuffers⟩ : ∃ l r, after.posted = [(r, sizeofNode rightArgument),
      (l, sizeofNode leftArgument), (staged.predData target, sizeofNode (staged.buffers thread 0).type)] ++
        staged.posted ∧
      after.buffers = Function.update staged.buffers thread (Function.update (Function.update (Function.update
        (staged.buffers thread) 0 { staged.buffers thread 0 with rlink := l }) 2
          { staged.buffers thread 2 with rlink := (staged.buffers thread 1).rlink }) 1
            { staged.buffers thread 1 with rlink := r }) := by
    refine ⟨(staged.allocate source thread (sizeofNode leftArgument)).1,
      ((staged.allocate source thread (sizeofNode leftArgument)).2.allocate source thread
        (sizeofNode rightArgument)).1, rfl, ?_⟩
    change (writeBackSplitted staged source thread target leftArgument rightArgument .done).2.buffers = _
    simp [writeBackSplitted, allocate, setSlot, postBatchWrite, writeBatch, write, setDataNode, setSlist]
  rw [isPosted, isBuffers, isPred, isLeft, isRight]
  refine ⟨⟨l, r, rfl⟩, ?_, ?_, ?_⟩
  · simp
    rfl
  · simp
    rfl
  · simp
    rfl

/-- A split posts the predecessor and the two halves, with the sizes of its template arguments. -/
theorem splitPath_posts (start : ComputeNode) (thread : ThreadId) (target : NodeId) (key value : Bytes16)
    (isDone : draws.batch = .done) (done : Bool) (leftCap : Nat)
    (leftType rightType leftArgument rightArgument : LinkedNodeType) {work : Handover}
    (isWork : start.splitWork thread target key.val value.val done = work) :
    let halves := splitBuffer work.real (start.buffers thread 1) (start.buffers thread 2) leftCap
    PostsHalves (start.splitPath source thread target key.val value.val draws leftCap leftType rightType
      leftArgument rightArgument done) start thread work halves.1 halves.2.1 leftArgument rightArgument := by
  intro halves
  obtain ⟨⟨l, r, posted⟩, isPred, isLeft, isRight⟩ := @writeBackSplitted_posted source start thread target
    work.pred (sealedAs leftType halves.1) (sealedAs rightType halves.2.1) work.requests leftArgument
    rightArgument
  have sealedHalves := halvesStaged_sealed start thread work.pred halves.1 halves.2.1 work.requests
    leftType rightType
  simp only [halvesStaged] at sealedHalves posted isPred isLeft isRight
  unfold splitPath outOfPlaceSplitNode
  rw [isWork, isDone]
  simp only [asyncUpdate_eq]
  rw [sealedHalves]
  split
  next => exact ⟨postedSizes_eq posted rfl, isPred, isLeft, isRight⟩
  next => exact ⟨postedSizes_eq posted rfl, isPred, isLeft, isRight⟩

/-! ### What the posted bytes have -/

/-- A batch has posted the bytes of a record with the key, of one of the slots. -/
def BatchCarries (outcome : PutOutcome) (before : ComputeNode) (thread : ThreadId) (slots : List Nat)
    (held : Bytes16) : Prop :=
  ∃ slot ∈ slots,
    (outcome.node.buffers thread slot).CarriedIn ((outcome.postedSizes before).getD slot 0) held

theorem not_carriedIn_zero (image : LinkedNode) (held : Bytes16) : ¬ image.CarriedIn 0 held := by
  rintro ⟨index, _, _, inside⟩
  rw [pairsOffset] at inside
  omega

section Carries

variable {outcome : PutOutcome} {work : Handover} (held : Bytes16)

theorem PostsNode.carries_pred_iff {chosen : LinkedNodeType} (posts : PostsNode outcome start thread work chosen) :
    BatchCarries outcome start thread [0] held ↔ work.pred.CarriedIn (sizeofNode work.pred.type) held := by
  unfold BatchCarries
  rw [posts.sizes]
  simp only [List.mem_singleton, exists_eq_left]
  exact LinkedNode.carriedIn_of_entries posts.pred

theorem PostsNode.carries_own_iff {chosen : LinkedNodeType} (posts : PostsNode outcome start thread work chosen)
    (isData : chosen.IsData) :
    BatchCarries outcome start thread [1, 2] held ↔
      ∃ index < work.real.next, work.real.matchesAt held.val index = true ∧ index < chosen.capacity := by
  rw [← LinkedNode.carriedIn_sizeofNode_iff isData, ← LinkedNode.carriedIn_of_entries posts.real]
  unfold BatchCarries
  rw [posts.sizes, List.exists_mem_cons_iff, List.exists_mem_cons_iff]
  apply or_iff_left
  rintro (inThird | ⟨_, isMember, _⟩)
  · exact not_carriedIn_zero _ held inThird
  · cases isMember

variable {left right : LinkedNode} {leftArgument rightArgument : LinkedNodeType}

theorem PostsHalves.carries_pred_iff
    (posts : PostsHalves outcome start thread work left right leftArgument rightArgument) :
    BatchCarries outcome start thread [0] held ↔ work.pred.CarriedIn (sizeofNode work.pred.type) held := by
  unfold BatchCarries
  rw [posts.sizes]
  simp only [List.mem_singleton, exists_eq_left]
  exact LinkedNode.carriedIn_of_entries posts.pred

/-- The posted parts of both halves, in terms of the node that was split. -/
theorem PostsHalves.carries_own_iff
    (posts : PostsHalves outcome start thread work left right leftArgument rightArgument)
    {leftCap : Nat} {picked : Nat → Bool} {anchor : Str}
    (halved : Halved work.real leftCap picked left right anchor) (leftData : leftArgument.IsData)
    (rightData : rightArgument.IsData) (leftFits : leftCap ≤ leftArgument.capacity) :
    BatchCarries outcome start thread [1, 2] held ↔
      SplitCarries work.real leftCap rightArgument.capacity held := by
  have inLeft := @half_matches_iff _ work.real left picked held leftArgument.capacity halved.leftEntries
  have inRight := @half_matches_iff _ work.real right (fun index => !picked index) held
    rightArgument.capacity halved.rightEntries
  have marks := fun index (bound : index < work.real.next) => countP_unmarked halved.ranked bound
  have isCarried : BatchCarries outcome start thread [1, 2] held ↔
      left.CarriedIn (sizeofNode leftArgument) held ∨ right.CarriedIn (sizeofNode rightArgument) held := by
    rw [← LinkedNode.carriedIn_of_entries posts.left, ← LinkedNode.carriedIn_of_entries posts.right]
    unfold BatchCarries
    rw [posts.sizes, List.exists_mem_cons_iff, List.exists_mem_cons_iff]
    apply or_congr_right
    apply or_iff_left
    rintro ⟨_, isMember, _⟩
    cases isMember
  rw [isCarried, LinkedNode.carriedIn_sizeofNode_iff leftData, LinkedNode.carriedIn_sizeofNode_iff rightData,
    inLeft, inRight]
  constructor
  · rintro (⟨index, bound, isPicked, isMatch, _⟩ | ⟨index, bound, _, isMatch, within⟩)
    · exact ⟨index, bound, isMatch, .inl ((halved.ranked index bound).mp isPicked)⟩
    · exact ⟨index, bound, isMatch, .inr (marks index bound ▸ within)⟩
  · rintro ⟨index, bound, isMatch, place⟩
    by_cases isLeft : rankAt work.real index < leftCap
    · left
      have isPicked := (halved.ranked index bound).mpr isLeft
      have isPlace := (getElem?_filter_range picked work.real.next _ index).mpr ⟨bound, isPicked, rfl⟩
      have inside := (List.getElem?_eq_some_iff.mp isPlace).1
      rw [← List.countP_eq_length_filter, halved.least.count] at inside
      exact ⟨index, bound, isPicked, isMatch, inside.trans_le leftFits⟩
    · right
      have notPicked : picked index = false := by
        rw [← Bool.not_eq_true, halved.ranked index bound]
        exact isLeft
      exact ⟨index, bound, by rw [notPicked]; rfl, isMatch, marks index bound ▸ place.resolve_left isLeft⟩

end Carries

/-! ### Which records a batch must carry -/

/-- A plan reports its records written: the put's own, and those it has told so. -/
def BatchReports (node : ComputeNode) (outcome : PutOutcome) (before : ComputeNode) (thread : ThreadId)
    (target : NodeId) (key : Bytes16) : Prop :=
  BatchCarries outcome before thread [1, 2] key ∧
    ∀ answered ∈ outcome.replies, answered.2.succeed = true →
      BatchCarries outcome before thread
        (if answered.1.tag.val < (node.slist.nodes target).anchor then [0] else [1, 2]) answered.1.tag

/-- What a put tells in all, and what its batch carries. -/
theorem reports_iff_taken {outcome : PutOutcome} {before : ComputeNode} {room : Nat} {work : Handover}
    (serves : PlanServes node thread target key value type room work outcome.replies)
    (carriesPred : ∀ held, work.pred.CarriedIn (sizeofNode work.pred.type) held →
      BatchCarries outcome before thread [0] held) :
    BatchReports node outcome before thread target key ↔
      ∀ pair ∈ node.plannedTaken thread target key value type room,
        BatchCarries outcome before thread [1, 2] pair.key := by
  constructor
  · rintro ⟨own, helped⟩ pair isTaken
    rcases (serves.told pair).mp isTaken with isOwn | ⟨answered, isReply, succeed, above, isOffer⟩
    · rw [isOwn]
      exact own
    · have carried := helped answered isReply succeed
      rw [if_neg above] at carried
      rw [← isOffer]
      exact carried
  · intro all
    refine ⟨all ⟨key, value⟩ ((serves.told _).mpr (.inl rfl)), fun answered isReply succeed => ?_⟩
    by_cases below : answered.1.tag.val < (node.slist.nodes target).anchor
    · rw [if_pos below]
      exact carriesPred _ (serves.below answered isReply succeed below)
    · rw [if_neg below]
      exact all (offerOf answered.1) ((serves.told _).mpr (.inr ⟨answered, isReply, succeed, below, rfl⟩))

/-- A node written to one chunk has all of them if it has room for its records, and misses
its last one otherwise. -/
theorem node_carries_iff {room : Nat} {chosen : LinkedNodeType}
    (small : (node.fetchedReal thread target).next ≤ chosen.capacity) :
    (∀ pair ∈ node.plannedTaken thread target key value type room,
        ∃ index < (node.plannedImage thread target key value type room).next,
          (node.plannedImage thread target key value type room).matchesAt pair.key.val index = true ∧
            index < chosen.capacity) ↔
      (node.plannedImage thread target key value type room).next ≤ chosen.capacity := by
  constructor
  · intro all
    by_contra beyond
    rcases LinkedNode.taken_of_new_slot small (not_le.mp beyond) with ⟨pair, isTaken, isNew⟩
    rcases all pair isTaken with ⟨index, _, isMatch, inside⟩
    have notMatch := isNew index inside
    change (node.plannedImage thread target key value type room).matchesAt pair.key.val index = false at notMatch
    rw [isMatch] at notMatch
    cases notMatch
  · intro fits pair isTaken
    rcases LinkedNode.matchesAt_of_taken isTaken with ⟨index, bound, isMatch⟩
    exact ⟨index, bound, isMatch, bound.trans_le fits⟩

omit [Digest] in
theorem rankAt_of_entries {left right : LinkedNode} (same : left.entries = right.entries) {index : Nat}
    (bound : index < left.next) : rankAt left index = rankAt right index := by
  rcases LinkedNode.slots_of_entries same with ⟨sameNext, _, samePairs⟩
  unfold rankAt rankBefore
  rw [← sameNext]
  apply List.countP_congr
  intro other inRange
  simp only [samePairs index bound, samePairs other (List.mem_range.mp inRange)]

theorem splitCarries_of_entries {left right : LinkedNode} (same : left.entries = right.entries)
    {leftCap rightCap : Nat} {held : Bytes16} (carries : SplitCarries left leftCap rightCap held) :
    SplitCarries right leftCap rightCap held := by
  rcases carries with ⟨index, bound, isMatch, place⟩
  have sameNext := (LinkedNode.slots_of_entries same).1
  have counts : (List.range index).countP (fun before => leftCap ≤ rankAt left before) =
      (List.range index).countP fun before => leftCap ≤ rankAt right before := by
    apply List.countP_congr
    intro before isBefore
    rw [rankAt_of_entries same ((List.mem_range.mp isBefore).trans bound)]
  rw [rankAt_of_entries same bound, counts] at place
  exact ⟨index, sameNext ▸ bound, (LinkedNode.matchesAt_of_entries same held.val bound).symm.trans isMatch, place⟩

/-- A right half that is posted whole leaves nothing behind. -/
theorem splitReaches_of_fits {leftCap rightCap : Nat}
    (enough : leftCap ≤ (node.plannedImage thread target key value type bufferCapacity).next)
    (fits : (node.plannedImage thread target key value type bufferCapacity).next ≤ leftCap + rightCap) :
    node.SplitReaches thread target key value type leftCap rightCap := by
  intro pair isTaken
  rcases LinkedNode.matchesAt_of_taken isTaken with ⟨index, bound, isMatch⟩
  refine ⟨index, bound, isMatch, ?_⟩
  change index < (node.plannedImage thread target key value type bufferCapacity).next at bound
  generalize node.plannedImage thread target key value type bufferCapacity = image at enough fits bound
  by_cases isLeft : rankAt image index < leftCap
  · exact .inl isLeft
  · right
    obtain ⟨picked, isPicked⟩ : ∃ picked, picked =
      (select (fun slot => (image.pairs slot).key.val) image.next leftCap).picked := ⟨_, rfl⟩
    have marks : ∀ slot < image.next, picked slot = true ↔ rankAt image slot < leftCap := by
      intro slot inside
      rw [isPicked]
      exact select_picked_iff _ enough inside
    have least : (List.range image.next).countP picked = leftCap := by
      rw [isPicked]
      exact (select_least (fun slot => (image.pairs slot).key.val) enough).count
    have isPlace := (getElem?_filter_range (fun slot => !picked slot) image.next _ index).mpr
      ⟨bound, by simpa using (not_iff_not.mpr (marks index bound)).mpr isLeft, rfl⟩
    have inside := (List.getElem?_eq_some_iff.mp isPlace).1
    have all := List.length_eq_countP_add_countP picked (l := List.range image.next)
    rw [← List.countP_eq_length_filter] at inside
    rw [List.length_range, least] at all
    rw [countP_unmarked marks bound] at inside
    simp only [Bool.not_eq_true, Bool.decide_eq_false] at all
    omega

/-- A node that does not take everything in place is full when it has taken what it can. -/
theorem le_plannedImage_next (overfull : ¬ node.FitsInPlace thread target key value type) {room : Nat}
    (grows : type.capacity ≤ room) : type.capacity ≤ (node.plannedImage thread target key value type room).next := by
  have stored := (LinkedNode.store_next_bounds (node.fetchedReal thread target) room key.val value.val).1
  unfold plannedImage plannedOffers
  rw [LinkedNode.storeAll_cons]
  by_cases isRoom : (node.fetchedReal thread target).next < type.capacity
  · rw [if_pos isRoom, store_larger grows isRoom]
    apply LinkedNode.le_storeAll_postponed grows
    exact fun later => overfull ⟨isRoom, later⟩
  · rw [if_neg isRoom]
    exact ((not_lt.mp isRoom).trans stored).trans (LinkedNode.storeAll_next_bounds _ _ room).1

/-! ### The plans -/

section Plans

variable {done : Bool} {earlier : List (ConcurrencyRequest × Reply)}

theorem batchCarries_planned (plan : PutPlan) (slots : List Nat) (held : Bytes16)
    (samePosted : start.posted = node.posted) :
    BatchCarries (planned source start thread target key value draws done earlier plan) node thread slots held ↔
      BatchCarries (start.followPlan source thread target key.val value.val draws done plan) start thread slots
        held := by
  unfold BatchCarries PutOutcome.postedSizes
  rw [samePosted]
  exact Iff.rfl

variable (bounded : (node.fetchedReal thread target).next ≤ type.capacity)
variable (deferred : Deferred node start thread target type done)
variable (resumes : Resumes node start thread target key value type done earlier)
variable (isDone : draws.batch = .done)

include bounded deferred resumes isDone

theorem morph_reports_iff (isTen : type = .type10) :
    BatchReports node (planned source start thread target key value draws done earlier .morph) node thread
        target key ↔ node.BatchReaches thread target key value type := by
  have posts := @morphPath_posts _ source draws start thread target key value isDone done
  have room : type.capacity < PutPlan.morph.room := by
    rw [isTen]
    decide
  have serves := planServes .morph room bounded deferred.slist resumes
  have ten : type.capacity ≤ (morphNode (node.plannedImage thread target key value type 16)).capacity := by
    rw [isTen]
    exact ten_le_capacity (morphNode_isData _)
  have isImage : (start.planWork thread target key value done .morph).real =
      node.plannedImage thread target key value type 16 := serves.real
  rw [reports_iff_taken serves fun held carried =>
    (batchCarries_planned .morph [0] held deferred.posted).mpr ((posts.carries_pred_iff held).mpr carried)]
  have whole : (∀ pair ∈ node.plannedTaken thread target key value type PutPlan.morph.room,
      BatchCarries (planned source start thread target key value draws done earlier .morph) node thread [1, 2]
        pair.key) ↔
      (node.plannedImage thread target key value type 16).next ≤
        (morphNode (node.plannedImage thread target key value type 16)).capacity := by
    rw [← @node_carries_iff _ thread target type node key value 16 _ (bounded.trans ten)]
    apply forall₂_congr
    intro pair _
    rw [batchCarries_planned .morph [1, 2] pair.key deferred.posted]
    have own := posts.carries_own_iff pair.key (morphNode_isData _)
    rw [isImage] at own
    exact own
  rw [whole]
  constructor
  · intro fits
    exact ⟨fun _ => fits, fun isTwelve => absurd (isTen.symm.trans isTwelve) (by decide),
      fun isFourteen => absurd (isTen.symm.trans isFourteen) (by decide)⟩
  · intro reaches
    exact reaches.morph isTen

/-- `eager_morph` writes sixteen pairs. -/
theorem eager_reports (room : type.capacity < 16) :
    BatchReports node (planned source start thread target key value draws done earlier .eager) node thread
      target key := by
  have posts := @eagerMorph_posts _ source draws start thread target key value isDone done
  have serves := planServes .eager room bounded deferred.slist resumes
  have isImage : (start.planWork thread target key value done .eager).real =
      node.plannedImage thread target key value type 16 := serves.real
  have isReplies : (planned source start thread target key value draws done earlier .eager).replies =
      earlier ++ (start.planWork thread target key value done .eager).replies :=
    congrArg (earlier ++ ·) (followPlan_replies start (deferred.bounded.trans (capacity_le_sixteen type)) key
      value draws done .eager)
  rw [← isReplies] at serves
  rw [reports_iff_taken serves fun held carried =>
    (batchCarries_planned .eager [0] held deferred.posted).mpr ((posts.carries_pred_iff held).mpr carried)]
  intro pair isTaken
  rw [batchCarries_planned .eager [1, 2] pair.key deferred.posted]
  have own := posts.carries_own_iff pair.key LinkedNodeType.isData16
  rw [isImage] at own
  apply own.mpr
  have fits : (node.plannedImage thread target key value type 16).next ≤ LinkedNodeType.type16.capacity :=
    LinkedNode.storeAll_next_le (bounded.trans room.le) _
  exact (node_carries_iff (bounded.trans (show type.capacity ≤ LinkedNodeType.type16.capacity from room.le))).mpr
    fits pair isTaken

theorem split_reports_iff (leftCap : Nat) (leftType rightType : LinkedNodeType)
    {leftArgument rightArgument : LinkedNodeType} (leftData : leftArgument.IsData)
    (rightData : rightArgument.IsData) (leftFits : leftCap ≤ leftArgument.capacity)
    (room : type.capacity < bufferCapacity) (enough : leftCap < (node.plannedImage thread target key value type
      bufferCapacity).next) :
    BatchReports node (planned source start thread target key value draws done earlier
        (.split leftCap leftType rightType leftArgument rightArgument)) node thread target key ↔
      node.SplitReaches thread target key value type leftCap rightArgument.capacity := by
  obtain ⟨work, isWork⟩ : ∃ work, start.splitWork thread target key.val value.val done = work := ⟨_, rfl⟩
  have posts := @splitPath_posts _ source draws start thread target key value isDone done leftCap leftType
    rightType leftArgument rightArgument work isWork
  have serves := planServes (.split leftCap leftType rightType leftArgument rightArgument) room bounded
    deferred.slist resumes
  obtain ⟨samePred, sameReal, _, _⟩ := @splitWork_entries _ thread target key value start done
    (deferred.bounded.trans (capacity_le_sixteen type))
  simp only [isWork] at samePred sameReal
  change work.pred = (start.planWork thread target key value done
    (.split leftCap leftType rightType leftArgument rightArgument)).pred at samePred
  change work.real.entries = (start.planWork thread target key value done
    (.split leftCap leftType rightType leftArgument rightArgument)).real.entries at sameReal
  rw [serves.real] at sameReal
  have isReplies : (planned source start thread target key value draws done earlier
      (.split leftCap leftType rightType leftArgument rightArgument)).replies =
        earlier ++ (start.planWork thread target key value done
          (.split leftCap leftType rightType leftArgument rightArgument)).replies :=
    congrArg (earlier ++ ·) (followPlan_replies start (deferred.bounded.trans (capacity_le_sixteen type)) key
      value draws done _)
  rw [← isReplies] at serves
  obtain ⟨picked, halved, _, _⟩ := splitBuffer_spec work.real (start.buffers thread 1) (start.buffers thread 2)
    (show leftCap < work.real.next by rw [next_of_entries sameReal]; exact enough)
  rw [reports_iff_taken serves fun held carried => by
    rw [batchCarries_planned _ [0] held deferred.posted]
    apply (posts.carries_pred_iff held).mpr
    rw [samePred]
    exact carried]
  unfold SplitReaches
  apply forall₂_congr
  intro pair _
  rw [batchCarries_planned _ [1, 2] pair.key deferred.posted]
  refine (posts.carries_own_iff pair.key halved leftData rightData leftFits).trans ⟨?_, ?_⟩
  · exact splitCarries_of_entries sameReal
  · exact splitCarries_of_entries sameReal.symm

/-- A completed batch has the bytes of every record reported exactly when it reaches them. -/
theorem plan_reports_iff (isData : type.IsData) (overfull : ¬ node.FitsInPlace thread target key value type)
    (few : ∀ limit, (start.contexts thread).requests.length + (if done then 0 else 1) ≤ limit ↔
      node.LeavesAtMost thread target key value type limit) :
    BatchReports node (planned source start thread target key value draws done earlier
        (planOf type ((start.contexts thread).requests.length + (if done then 0 else 1)))) node thread target key ↔
      node.BatchReaches thread target key value type := by
  have small : type.capacity < bufferCapacity :=
    (capacity_le_sixteen type).trans_lt (show 16 < bufferCapacity by decide)
  have filled := le_plannedImage_next overfull small.le
  have atMost : (node.plannedImage thread target key value type bufferCapacity).next ≤ bufferCapacity :=
    LinkedNode.storeAll_next_le (bounded.trans small.le) _
  have grown : (node.plannedImage thread target key value type bufferCapacity).next ≤
      type.capacity + ((start.contexts thread).requests.length + (if done then 0 else 1)) := by
    have serves := planServes (.split 0 .type10 .type10 .type10 .type10) small bounded deferred.slist resumes
    have isImage : (start.planWork thread target key value done
        (.split 0 .type10 .type10 .type10 .type10)).real =
      node.plannedImage thread target key value type bufferCapacity := serves.real
    rw [← isImage]
    exact help_next_le deferred rfl
  have four := few 4
  have two := few 2
  generalize (start.contexts thread).requests.length + (if done then 0 else 1) = pendings at four two grown ⊢
  cases type with
  | type10 => exact morph_reports_iff bounded deferred resumes isDone rfl
  | type12 =>
      by_cases short : pendings ≤ 4
      · have isPlan : planOf .type12 pendings = .eager := if_pos short
        rw [isPlan]
        apply iff_of_true (eager_reports bounded deferred resumes isDone (by decide))
        exact ⟨nofun, fun _ notShort => absurd (four.mp short) notShort, nofun⟩
      · have isPlan : planOf .type12 pendings = .split 9 .type10 .type10 .type10 .type10 := if_neg short
        rw [isPlan, split_reports_iff bounded deferred resumes isDone 9 .type10 .type10 LinkedNodeType.isData10
          LinkedNodeType.isData10 (by decide) small (show 9 < _ from lt_of_lt_of_le (by decide) filled)]
        exact ⟨fun reaches => ⟨nofun, fun _ _ => reaches, nofun⟩,
          fun reaches => reaches.split12 rfl (mt four.mpr short)⟩
  | type14 =>
      by_cases short : pendings ≤ 2
      · have isPlan : planOf .type14 pendings = .eager := if_pos short
        rw [isPlan]
        apply iff_of_true (eager_reports bounded deferred resumes isDone (by decide))
        exact ⟨nofun, nofun, fun _ notShort => absurd (two.mp short) notShort⟩
      · have isPlan : planOf .type14 pendings = .split 8 .type10 .type12 .type10 .type10 := if_neg short
        rw [isPlan, split_reports_iff bounded deferred resumes isDone 8 .type10 .type12 LinkedNodeType.isData10
          LinkedNodeType.isData10 (by decide) small (show 8 < _ from lt_of_lt_of_le (by decide) filled)]
        exact ⟨fun reaches => ⟨nofun, nofun, fun _ _ => reaches⟩,
          fun reaches => reaches.split14 rfl (mt two.mpr short)⟩
  | type16 =>
      have reaches : node.BatchReaches thread target key value .type16 := ⟨nofun, nofun, nofun⟩
      apply iff_of_true _ reaches
      change 16 ≤ _ at filled
      change _ ≤ 21 at atMost
      change _ ≤ 16 + pendings at grown
      by_cases shortest : pendings ≤ 2
      · have isPlan : planOf .type16 pendings = .split 9 .type10 .type10 .type10 .type10 := if_pos shortest
        rw [isPlan, split_reports_iff bounded deferred resumes isDone 9 .type10 .type10 LinkedNodeType.isData10
          LinkedNodeType.isData10 (by decide) small (by omega)]
        exact splitReaches_of_fits (by omega) (show _ ≤ 9 + 10 by omega)
      · by_cases short : pendings ≤ 4
        · have isPlan : planOf .type16 pendings = .split 9 .type10 .type12 .type10 .type12 :=
            (if_neg shortest).trans (if_pos short)
          rw [isPlan, split_reports_iff bounded deferred resumes isDone 9 .type10 .type12
            LinkedNodeType.isData10 LinkedNodeType.isData12 (by decide) small (by omega)]
          exact splitReaches_of_fits (by omega) (show _ ≤ 9 + 12 by omega)
        · have isPlan : planOf .type16 pendings = .split 10 .type12 .type12 .type12 .type12 :=
            (if_neg shortest).trans (if_neg short)
          rw [isPlan, split_reports_iff bounded deferred resumes isDone 10 .type12 .type12
            LinkedNodeType.isData12 LinkedNodeType.isData12 (by decide) small (by omega)]
          exact splitReaches_of_fits (by omega) (show _ ≤ 10 + 12 by omega)
  | _ => exact absurd isData id

end Plans

end ComputeNode

end DiStore.Cluster
