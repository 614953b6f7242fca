import DiStore.Concurrency.HandoverLocktable
import DiStore.DataLayer.Entries

/-!
Contract: the requests a winner serves from its queue, before it writes anything.

Owns: `help_pred`, `help_others`, the loop of `put10` that stands in its place, the
loop they share (`serve`), and what such a loop does to the two images and which
answers it gives.

Does not own: which image is written back afterwards.
-/

set_option autoImplicit false

namespace DiStore.Cluster

open DiStore.Concurrency DiStore.DataLayer

/-- The record a request carries. -/
def offerOf (request : ConcurrencyRequest) : KV := ⟨request.tag, request.content⟩

/-- The predecessor's image, the winner's own, the queue, and the answers given. -/
structure Handover where
  pred : LinkedNode
  real : LinkedNode
  requests : List ConcurrencyRequest
  replies : List (ConcurrencyRequest × Reply)

section Definitions

variable [Digest]

/-- `help_pred`. -/
def helpPred (buffer : LinkedNode) (key value : Str) : Bool × LinkedNode :=
  match buffer.type with
  | .type16 => buffer.store 16 key value
  | .type14 => buffer.store 14 key value
  | .type12 => buffer.store 12 key value
  | .type10 => buffer.store 10 key value
  | _ => (false, buffer)

/-- One round of a loop over the queue. A key below the anchor belongs to the
predecessor; for the others `answer` says what `store` returning true or false is
answered with. -/
def serveRequest (answer : Bool → Option Reply) (capacity : Nat) (anchor : Str) (pred real : LinkedNode)
    (request : ConcurrencyRequest) : Option Reply × LinkedNode × LinkedNode :=
  if request.tag.val < anchor then
    let (stored, pred) := helpPred pred request.tag.val request.content.val
    (some ⟨stored, !stored⟩, pred, real)
  else
    let (stored, real) := real.store capacity request.tag.val request.content.val
    (answer stored, pred, real)

/-- `while (requests.try_pop(req))`: a request without an answer is pushed back and
ends the loop. -/
def serve (answer : Bool → Option Reply) (capacity : Nat) (anchor : Str) (pred real : LinkedNode) :
    List ConcurrencyRequest → Handover
  | [] => ⟨pred, real, [], []⟩
  | request :: rest =>
      match serveRequest answer capacity anchor pred real request with
      | (some reply, pred, real) =>
          let work := serve answer capacity anchor pred real rest
          { work with replies := (request, reply) :: work.replies }
      | (none, pred, real) => ⟨pred, real, rest ++ [request], []⟩

/-- `help_others` leaves a request that finds the node full. -/
def helpAnswer (stored : Bool) : Option Reply := if stored then some ⟨true, false⟩ else none

/-- `put10` answers every request. -/
def morphAnswer (stored : Bool) : Option Reply := some ⟨stored, !stored⟩

/-- `help_others` for a node type with `capacity` pairs. -/
def helpOthers (capacity : Nat) (anchor : Str) (pred real : LinkedNode)
    (requests : List ConcurrencyRequest) : Handover :=
  serve helpAnswer capacity anchor pred real requests

/-- The loop of `put10`. -/
def morphOthers (anchor : Str) (pred real : LinkedNode) (requests : List ConcurrencyRequest) :
    Handover :=
  serve morphAnswer 16 anchor pred real requests

end Definitions

/-- The pairs `help_pred` lets a predecessor have: none unless it is a data node. -/
def helpCapacity (type : LinkedNodeType) : Nat := if type.IsData then type.capacity else 0

variable [Digest] {answer : Bool → Option Reply} {pred real : LinkedNode} {capacity : Nat} {anchor : Str}
variable {requests : List ConcurrencyRequest}

theorem helpPred_eq (buffer : LinkedNode) (key value : Str) :
    helpPred buffer key value = buffer.store (helpCapacity buffer.type) key value := by
  unfold helpPred helpCapacity
  cases buffer.type <;> simp [LinkedNodeType.IsData, LinkedNodeType.capacity, LinkedNode.store]

theorem serveRequest_below {request : ConcurrencyRequest} (below : request.tag.val < anchor) :
    serveRequest answer capacity anchor pred real request =
      (some ⟨(pred.store (helpCapacity pred.type) request.tag.val request.content.val).1,
          !(pred.store (helpCapacity pred.type) request.tag.val request.content.val).1⟩,
        (pred.store (helpCapacity pred.type) request.tag.val request.content.val).2, real) := by
  rw [serveRequest, if_pos below, helpPred_eq]

theorem serveRequest_above {request : ConcurrencyRequest} (above : ¬ request.tag.val < anchor) :
    serveRequest answer capacity anchor pred real request =
      (answer (real.store capacity request.tag.val request.content.val).1, pred,
        (real.store capacity request.tag.val request.content.val).2) := by
  rw [serveRequest, if_neg above]

/-- Answers report what `store` returned, and success is always answered. -/
structure Truthful (answer : Bool → Option Reply) : Prop where
  success : answer true = some ⟨true, false⟩
  failure : ∀ reply, answer false = some reply → reply = ⟨false, true⟩

omit [Digest] in
theorem helpAnswer_truthful : Truthful helpAnswer where
  success := rfl
  failure _ answered := by cases answered

omit [Digest] in
theorem morphAnswer_truthful : Truthful morphAnswer where
  success := rfl
  failure _ answered := (Option.some.inj answered).symm

omit [Digest] in
theorem Truthful.reply (truthful : Truthful answer) {stored : Bool} {reply : Reply}
    (answered : answer stored = some reply) : reply = ⟨stored, !stored⟩ := by
  cases stored with
  | true => exact (Option.some.inj (truthful.success.symm.trans answered)).symm
  | false => exact truthful.failure reply answered

/-- What a loop over the queue does: both images only grow, within their room, by
records of acknowledged requests on their side of the anchor; and who is told that its
record is stored can find it in the image of its side. -/
structure Served (capacity : Nat) (anchor : Str) (pred real : LinkedNode)
    (requests : List ConcurrencyRequest) (work : Handover) (addedPred addedReal : List KV) : Prop where
  predGrows : work.pred = pred.appendAll addedPred
  realGrows : work.real = real.appendAll addedReal
  predRoom : pred.next + addedPred.length ≤ max pred.next (helpCapacity pred.type)
  realRoom : real.next + addedReal.length ≤ max real.next capacity
  predOffers : ∀ pair ∈ addedPred, ∃ answered ∈ work.replies, answered.2.succeed = true ∧
    answered.1.tag.val < anchor ∧ offerOf answered.1 = pair
  realOffers : ∀ pair ∈ addedReal, ∃ answered ∈ work.replies, answered.2.succeed = true ∧
    ¬ answered.1.tag.val < anchor ∧ offerOf answered.1 = pair
  length : addedPred.length + addedReal.length + work.requests.length ≤ requests.length
  remaining : work.requests ⊆ requests
  answers : ∀ answered ∈ work.replies, answered.1 ∈ requests ∧ answered.2.retry = !answered.2.succeed ∧
    (answered.2.succeed = true →
      if answered.1.tag.val < anchor then pred.type.IsData ∧ (work.pred.find answered.1.tag.val).isSome
      else (work.real.find answered.1.tag.val).isSome)

/-- Only a data node helps. -/
theorem isData_of_helped {node : LinkedNode} {key value : Str}
    (stored : (node.store (helpCapacity node.type) key value).1 = true) : node.type.IsData := by
  by_contra notData
  rw [LinkedNode.store_fst, helpCapacity, if_neg notData] at stored
  simp at stored

/-- A single `store`, as growth of the node. -/
theorem store_grows (node : LinkedNode) (capacity : Nat) (key value : Bytes16) :
    ∃ added, (node.store capacity key.val value.val).2 = node.appendAll added ∧
      (∀ pair ∈ added, pair = ⟨key, value⟩ ∧ (node.store capacity key.val value.val).1 = true) ∧
      added.length ≤ 1 ∧ node.next + added.length ≤ max node.next capacity := by
  obtain ⟨added, grown, place⟩ := LinkedNode.store_appends node capacity key value
  refine ⟨added, grown, ?_⟩
  rcases place with isNil | ⟨isOne, room, _⟩
  · rw [isNil]
    exact ⟨(fun _ isMember => by cases isMember), Nat.zero_le 1, le_max_left _ _⟩
  · rw [isOne]
    refine ⟨fun _ isMember => ⟨List.mem_singleton.mp isMember, ?_⟩, le_rfl,
      Nat.le_trans room (le_max_right _ _)⟩
    rw [LinkedNode.store_fst]
    exact decide_eq_true room

/-- A request that its image serves, before the rest of the queue. -/
theorem Served.cons_below {request : ConcurrencyRequest} {rest : List ConcurrencyRequest} {work : Handover}
    {addedPred addedReal : List KV} (below : request.tag.val < anchor)
    (served : Served capacity anchor
      (pred.store (helpCapacity pred.type) request.tag.val request.content.val).2 real rest work
      addedPred addedReal) :
    ∃ added, Served capacity anchor pred real (request :: rest)
      { work with replies :=
          (request, ⟨(pred.store (helpCapacity pred.type) request.tag.val request.content.val).1,
            !(pred.store (helpCapacity pred.type) request.tag.val request.content.val).1⟩) :: work.replies }
      (added ++ addedPred) addedReal := by
  obtain ⟨added, grown, isOffer, single, room⟩ :=
    store_grows pred (helpCapacity pred.type) request.tag request.content
  have predGrows := served.predGrows
  have predRoom := served.predRoom
  rw [grown] at predGrows predRoom
  rw [LinkedNode.appendAll_next, LinkedNode.appendAll_type] at predRoom
  refine ⟨added, ⟨?_, served.realGrows, ?_, served.realRoom, ?_, ?_, ?_, ?_, ?_⟩⟩
  · rw [predGrows, LinkedNode.appendAll_append]
  · rw [List.length_append]
    omega
  · intro pair isMember
    rcases List.mem_append.mp isMember with first | later
    · obtain ⟨isPair, stored⟩ := isOffer pair first
      exact ⟨_, List.mem_cons_self, stored, below, isPair.symm⟩
    · obtain ⟨other, inRest, facts⟩ := served.predOffers pair later
      exact ⟨other, List.mem_cons_of_mem _ inRest, facts⟩
  · intro pair isMember
    obtain ⟨other, inRest, facts⟩ := served.realOffers pair isMember
    exact ⟨other, List.mem_cons_of_mem _ inRest, facts⟩
  · have later := served.length
    change _ + _ + work.requests.length ≤ _
    rw [List.length_append, List.length_cons]
    omega
  · exact fun _ isMember => List.mem_cons_of_mem _ (served.remaining isMember)
  · intro answered isMember
    rcases List.mem_cons.mp isMember with isFirst | later
    · rw [isFirst]
      refine ⟨List.mem_cons_self, rfl, fun stored => ?_⟩
      rw [if_pos below]
      refine ⟨isData_of_helped stored, ?_⟩
      change (work.pred.find _).isSome
      rw [served.predGrows]
      apply LinkedNode.find_appendAll_isSome
      exact LinkedNode.find_store_isSome stored
    · obtain ⟨inRest, retry, facts⟩ := served.answers answered later
      rw [grown, LinkedNode.appendAll_type] at facts
      exact ⟨List.mem_cons_of_mem _ inRest, retry, facts⟩

theorem Served.cons_above {request : ConcurrencyRequest} {rest : List ConcurrencyRequest} {work : Handover}
    {addedPred addedReal : List KV} {reply : Reply} (above : ¬ request.tag.val < anchor)
    (isReply : reply = ⟨(real.store capacity request.tag.val request.content.val).1,
      !(real.store capacity request.tag.val request.content.val).1⟩)
    (served : Served capacity anchor pred
      (real.store capacity request.tag.val request.content.val).2 rest work addedPred addedReal) :
    ∃ added, Served capacity anchor pred real (request :: rest)
      { work with replies := (request, reply) :: work.replies } addedPred (added ++ addedReal) := by
  obtain ⟨added, grown, isOffer, single, room⟩ :=
    store_grows real capacity request.tag request.content
  have realGrows := served.realGrows
  have realRoom := served.realRoom
  rw [grown] at realGrows realRoom
  rw [LinkedNode.appendAll_next] at realRoom
  refine ⟨added, ⟨served.predGrows, ?_, served.predRoom, ?_, ?_, ?_, ?_, ?_, ?_⟩⟩
  · rw [realGrows, LinkedNode.appendAll_append]
  · rw [List.length_append]
    omega
  · intro pair isMember
    obtain ⟨other, inRest, facts⟩ := served.predOffers pair isMember
    exact ⟨other, List.mem_cons_of_mem _ inRest, facts⟩
  · intro pair isMember
    rcases List.mem_append.mp isMember with first | later
    · obtain ⟨isPair, stored⟩ := isOffer pair first
      refine ⟨(request, reply), List.mem_cons_self, ?_, above, isPair.symm⟩
      rw [isReply]
      exact stored
    · obtain ⟨other, inRest, facts⟩ := served.realOffers pair later
      exact ⟨other, List.mem_cons_of_mem _ inRest, facts⟩
  · have later := served.length
    change _ + _ + work.requests.length ≤ _
    rw [List.length_append, List.length_cons]
    omega
  · exact fun _ isMember => List.mem_cons_of_mem _ (served.remaining isMember)
  · intro answered isMember
    rcases List.mem_cons.mp isMember with isFirst | later
    · rw [isFirst, isReply]
      refine ⟨List.mem_cons_self, rfl, fun stored => ?_⟩
      rw [if_neg above]
      change (work.real.find _).isSome
      rw [served.realGrows]
      apply LinkedNode.find_appendAll_isSome
      exact LinkedNode.find_store_isSome stored
    · obtain ⟨inRest, facts⟩ := served.answers answered later
      exact ⟨List.mem_cons_of_mem _ inRest, facts⟩

/-- A loop that ends before its first answer. -/
theorem served_unchanged (capacity : Nat) (anchor : Str) (pred real : LinkedNode)
    {remaining : List ConcurrencyRequest} (within : remaining ⊆ requests)
    (length : remaining.length ≤ requests.length) :
    Served capacity anchor pred real requests ⟨pred, real, remaining, []⟩ [] [] where
  predGrows := rfl
  realGrows := rfl
  predRoom := le_max_left _ _
  realRoom := le_max_left _ _
  predOffers _ isMember := by cases isMember
  realOffers _ isMember := by cases isMember
  length := by simpa using length
  remaining := within
  answers _ isMember := by cases isMember

theorem serve_served (truthful : Truthful answer) (capacity : Nat) (anchor : Str) (pred real : LinkedNode)
    (requests : List ConcurrencyRequest) :
    ∃ addedPred addedReal, Served capacity anchor pred real requests
      (serve answer capacity anchor pred real requests) addedPred addedReal := by
  induction requests generalizing pred real with
  | nil => exact ⟨[], [], served_unchanged capacity anchor pred real (List.Subset.refl _) le_rfl⟩
  | cons request rest ih =>
      unfold serve
      by_cases below : request.tag.val < anchor
      · rw [serveRequest_below below]
        obtain ⟨addedPred, addedReal, served⟩ :=
          ih (pred.store (helpCapacity pred.type) request.tag.val request.content.val).2 real
        obtain ⟨added, all⟩ := served.cons_below below
        exact ⟨added ++ addedPred, addedReal, all⟩
      · rw [serveRequest_above below]
        cases answered : answer (real.store capacity request.tag.val request.content.val).1 with
        | none =>
            -- only a full node is left unanswered, and it stays as it is
            have refused : (real.store capacity request.tag.val request.content.val).1 = false := by
              by_contra stored
              rw [Bool.not_eq_false] at stored
              rw [stored, truthful.success] at answered
              cases answered
            have same : (real.store capacity request.tag.val request.content.val).2 = real := by
              rcases LinkedNode.store_cases real capacity request.tag.val request.content.val with
                ⟨_, eq⟩ | ⟨_, _, eq⟩ | ⟨_, _, eq⟩
              · rw [eq]
              · rw [eq] at refused
                cases refused
              · rw [eq] at refused
                cases refused
            rw [same]
            refine ⟨[], [], served_unchanged capacity anchor pred real ?_ ?_⟩
            · intro other isMember
              rcases List.mem_append.mp isMember with inRest | isFirst
              · exact List.mem_cons_of_mem _ inRest
              · rw [List.mem_singleton.mp isFirst]
                exact List.mem_cons_self
            · simp
        | some reply =>
            obtain ⟨addedPred, addedReal, served⟩ :=
              ih pred (real.store capacity request.tag.val request.content.val).2
            obtain ⟨added, all⟩ := served.cons_above below (truthful.reply answered)
            exact ⟨addedPred, added ++ addedReal, all⟩

/-! ### Queues for one node -/

/-- With room for the whole queue, and no key for the predecessor, every request is
stored and told so. -/
theorem serve_all (success : answer true = some ⟨true, false⟩)
    (above : ∀ request ∈ requests, ¬ request.tag.val < anchor)
    (room : real.next + requests.length ≤ capacity) :
    serve answer capacity anchor pred real requests =
      ⟨pred, real.storeAll capacity (requests.map offerOf), [],
        requests.map fun request => (request, ⟨true, false⟩)⟩ := by
  induction requests generalizing real with
  | nil => rfl
  | cons request rest ih =>
      rw [List.length_cons] at room
      have bounds := LinkedNode.store_next_bounds real capacity request.tag.val request.content.val
      have stored : (real.store capacity request.tag.val request.content.val).1 = true := by
        rw [LinkedNode.store_fst]
        simp
        omega
      have later := @ih (real.store capacity request.tag.val request.content.val).2
        (fun other isMember => above other (List.mem_cons_of_mem _ isMember)) (by omega)
      unfold serve
      rw [serveRequest_above (above request List.mem_cons_self), stored, success]
      simp only [later]
      rfl

end DiStore.Cluster
