import DiStore.Cluster.Handover
import DiStore.DataLayer.Offers

/-!
Contract: the order in which a loop over the queue stores its requests.

Owns: the records a queue offers to each of the two nodes, the images after a loop in
terms of them, how much of the queue `help_others` leaves, and whom such a loop tells
that its record is stored.
-/

set_option autoImplicit false

namespace DiStore.Cluster

open DiStore.Concurrency DiStore.DataLayer

/-- The records of the requests for the winner's own node, in queue order. -/
def aboveOffers (anchor : Str) (requests : List ConcurrencyRequest) : List KV :=
  (requests.filter fun request => ¬ request.tag.val < anchor).map offerOf

/-- The records of the requests for its predecessor. -/
def belowOffers (anchor : Str) (requests : List ConcurrencyRequest) : List KV :=
  (requests.filter fun request => request.tag.val < anchor).map offerOf

section Offers

variable {anchor : Str} {request : ConcurrencyRequest} {requests : List ConcurrencyRequest}

theorem aboveOffers_cons_below (below : request.tag.val < anchor) :
    aboveOffers anchor (request :: requests) = aboveOffers anchor requests := by
  simp [aboveOffers, below]

theorem aboveOffers_cons_above (above : ¬ request.tag.val < anchor) :
    aboveOffers anchor (request :: requests) = offerOf request :: aboveOffers anchor requests := by
  unfold aboveOffers
  rw [List.filter_cons_of_pos (by simpa using above), List.map_cons]

theorem belowOffers_cons_below (below : request.tag.val < anchor) :
    belowOffers anchor (request :: requests) = offerOf request :: belowOffers anchor requests := by
  simp [belowOffers, below]

theorem belowOffers_cons_above (above : ¬ request.tag.val < anchor) :
    belowOffers anchor (request :: requests) = belowOffers anchor requests := by
  unfold belowOffers
  rw [List.filter_cons_of_neg (by simpa using above)]

theorem aboveOffers_append (first second : List ConcurrencyRequest) :
    aboveOffers anchor (first ++ second) = aboveOffers anchor first ++ aboveOffers anchor second := by
  simp [aboveOffers]

theorem length_aboveOffers_le : (aboveOffers anchor requests).length ≤ requests.length := by
  rw [aboveOffers, List.length_map]
  exact List.length_filter_le _ _

theorem mem_aboveOffers {pair : KV} :
    pair ∈ aboveOffers anchor requests ↔
      ∃ request ∈ requests, ¬ request.tag.val < anchor ∧ offerOf request = pair := by
  simp [aboveOffers, and_assoc]

end Offers

variable [Digest] {answer : Bool → Option Reply} {pred real : LinkedNode} {capacity : Nat} {anchor : Str}
variable {requests : List ConcurrencyRequest}

/-- What a loop over the queue did: it stored the requests of `served`, in order, and
either that was the whole queue or it stopped at one that found no room. -/
structure InOrder (answer : Bool → Option Reply) (capacity : Nat) (anchor : Str) (pred real : LinkedNode)
    (requests served : List ConcurrencyRequest) (work : Handover) : Prop where
  realStored : work.real = real.storeAll capacity (aboveOffers anchor served)
  predStored : work.pred = pred.storeAll (helpCapacity pred.type) (belowOffers anchor served)
  fits : answer false = none → LinkedNode.FitsAll capacity (aboveOffers anchor served) real
  rest : (requests = served ∧ work.requests = []) ∨
    ∃ stuck tail, requests = served ++ stuck :: tail ∧ work.requests = tail ++ [stuck] ∧
      answer false = none ∧ ¬ stuck.tag.val < anchor ∧ ¬ work.real.next < capacity

theorem store_type (node : LinkedNode) (capacity : Nat) (key value : Str) :
    (node.store capacity key value).2.type = node.type := by
  rcases LinkedNode.store_cases node capacity key value with ⟨_, eq⟩ | ⟨_, _, eq⟩ | ⟨_, _, eq⟩
  · rw [eq]
  · rw [eq]
  · rw [eq]
    rfl

theorem serve_inOrder (truthful : Truthful answer) (capacity : Nat) (anchor : Str) (pred real : LinkedNode)
    (requests : List ConcurrencyRequest) :
    ∃ served, InOrder answer capacity anchor pred real requests served
      (serve answer capacity anchor pred real requests) := by
  induction requests generalizing pred real with
  | nil => exact ⟨[], rfl, rfl, fun _ => trivial, Or.inl ⟨rfl, rfl⟩⟩
  | cons request rest ih =>
      unfold serve
      by_cases below : request.tag.val < anchor
      · rw [serveRequest_below below]
        obtain ⟨served, later⟩ :=
          ih (pred.store (helpCapacity pred.type) request.tag.val request.content.val).2 real
        have predLater := later.predStored
        rw [store_type] at predLater
        refine ⟨request :: served, ?_, ?_, ?_, ?_⟩
        · rw [aboveOffers_cons_below below]
          exact later.realStored
        · rw [belowOffers_cons_below below]
          exact predLater
        · rw [aboveOffers_cons_below below]
          exact later.fits
        · rcases later.rest with ⟨whole, empty⟩ | ⟨stuck, tail, parts, facts⟩
          · exact Or.inl ⟨by rw [whole], empty⟩
          · exact Or.inr ⟨stuck, tail, by rw [parts, List.cons_append], facts⟩
      · rw [serveRequest_above below]
        cases answered : answer (real.store capacity request.tag.val request.content.val).1 with
        | none =>
            -- the loop ends here, and the image is as it was
            have refused : (real.store capacity request.tag.val request.content.val).1 = false := by
              by_contra stored
              rw [Bool.not_eq_false] at stored
              rw [stored, truthful.success] at answered
              cases answered
            rw [refused] at answered
            rw [LinkedNode.store_fst] at refused
            have full := of_decide_eq_false refused
            rw [LinkedNode.store_refused full]
            exact ⟨[], rfl, rfl, fun _ => trivial,
              Or.inr ⟨request, rest, rfl, rfl, answered, below, full⟩⟩
        | some reply =>
            obtain ⟨served, later⟩ :=
              ih pred (real.store capacity request.tag.val request.content.val).2
            refine ⟨request :: served, ?_, ?_, ?_, ?_⟩
            · rw [aboveOffers_cons_above below]
              exact later.realStored
            · rw [belowOffers_cons_above below]
              exact later.predStored
            · intro stops
              rw [aboveOffers_cons_above below]
              refine ⟨?_, later.fits stops⟩
              by_contra full
              rw [LinkedNode.store_fst, decide_eq_false full, stops] at answered
              cases answered
            · rcases later.rest with ⟨whole, empty⟩ | ⟨stuck, tail, parts, facts⟩
              · exact Or.inl ⟨by rw [whole], empty⟩
              · exact Or.inr ⟨stuck, tail, by rw [parts, List.cons_append], facts⟩

/-- A loop stores the node's requests in queue order; behind one without room nothing is. -/
theorem serve_real (truthful : Truthful answer) (capacity : Nat) (anchor : Str) (pred real : LinkedNode)
    (requests : List ConcurrencyRequest) :
    (serve answer capacity anchor pred real requests).real =
      real.storeAll capacity (aboveOffers anchor requests) := by
  obtain ⟨served, order⟩ := serve_inOrder truthful capacity anchor pred real requests
  rcases order.rest with ⟨whole, _⟩ | ⟨stuck, tail, parts, _, _, _, full⟩
  · rw [whole]
    rw [whole] at order
    exact order.realStored
  · subst parts
    rw [aboveOffers_append, LinkedNode.storeAll_append, ← order.realStored, LinkedNode.storeAll_of_full full]

/-- `help_others` empties the queue exactly when every request for the node finds room. -/
theorem helpOthers_empty_iff :
    (helpOthers capacity anchor pred real requests).requests = [] ↔
      LinkedNode.FitsAll capacity (aboveOffers anchor requests) real := by
  obtain ⟨served, order⟩ := serve_inOrder helpAnswer_truthful capacity anchor pred real requests
  have fits := order.fits rfl
  rcases order.rest with ⟨whole, empty⟩ | ⟨stuck, tail, parts, remaining, _, above, full⟩
  · rw [← whole] at fits
    exact iff_of_true empty fits
  · apply iff_of_false
    · unfold helpOthers
      rw [remaining]
      exact List.append_ne_nil_of_right_ne_nil _ (List.cons_ne_nil _ _)
    · intro all
      rw [parts, aboveOffers_append, aboveOffers_cons_above above, LinkedNode.fitsAll_append] at all
      rw [order.realStored] at full
      exact full all.2.1

/-- How many requests `help_others` leaves: at most `limit` when the ones before them
all find room. -/
theorem helpOthers_length_le_iff (limit : Nat) :
    (helpOthers capacity anchor pred real requests).requests.length ≤ limit ↔
      LinkedNode.FitsAll capacity
        (aboveOffers anchor (requests.take (requests.length - limit))) real := by
  obtain ⟨served, order⟩ := serve_inOrder helpAnswer_truthful capacity anchor pred real requests
  have fits := order.fits rfl
  unfold helpOthers
  rcases order.rest with ⟨whole, empty⟩ | ⟨stuck, tail, parts, remaining, _, above, full⟩
  · rw [empty]
    apply iff_of_true (Nat.zero_le limit)
    rw [← whole] at fits
    rw [← List.take_append_drop (requests.length - limit) requests, aboveOffers_append,
      LinkedNode.fitsAll_append] at fits
    exact fits.1
  · have count : requests.length = served.length + (tail.length + 1) := by
      rw [parts, List.length_append, List.length_cons]
    have left : (serve helpAnswer capacity anchor pred real requests).requests.length =
        tail.length + 1 := by
      rw [remaining, List.length_append, List.length_singleton]
    rw [left]
    by_cases within : tail.length + 1 ≤ limit
    · apply iff_of_true within
      have before : requests.take (requests.length - limit) = served.take (requests.length - limit) := by
        rw [parts]
        exact List.take_append_of_le_length (by rw [← parts]; omega)
      rw [before]
      rw [← List.take_append_drop (requests.length - limit) served, aboveOffers_append,
        LinkedNode.fitsAll_append] at fits
      exact fits.1
    · apply iff_of_false within
      intro all
      -- the prefix reaches the request that found no room
      obtain ⟨extra, isExtra⟩ : ∃ extra, requests.length - limit = served.length + (extra + 1) :=
        ⟨requests.length - limit - served.length - 1, by omega⟩
      rw [isExtra, parts, List.take_length_add_append, List.take_succ_cons, aboveOffers_append,
        aboveOffers_cons_above above, LinkedNode.fitsAll_append] at all
      rw [order.realStored] at full
      exact full all.2.1

/-- What `help_others` leaves includes the request that found no room. -/
theorem helpOthers_waiting (pending : (helpOthers capacity anchor pred real requests).requests ≠ []) :
    ∃ request ∈ (helpOthers capacity anchor pred real requests).requests,
      ¬ request.tag.val < anchor := by
  obtain ⟨served, order⟩ := serve_inOrder helpAnswer_truthful capacity anchor pred real requests
  unfold helpOthers at pending ⊢
  rcases order.rest with ⟨_, empty⟩ | ⟨stuck, tail, _, remaining, _, above, _⟩
  · exact absurd empty pending
  · rw [remaining]
    exact ⟨stuck, List.mem_append_right _ List.mem_cons_self, above⟩

theorem serve_real_next_le (truthful : Truthful answer) :
    (serve answer capacity anchor pred real requests).real.next ≤ max real.next capacity := by
  obtain ⟨addedPred, addedReal, served⟩ := serve_served truthful capacity anchor pred real requests
  rw [served.realGrows, LinkedNode.appendAll_next]
  exact served.realRoom

/-! ### A loop after another one -/

theorem serve_cons (request : ConcurrencyRequest) (rest : List ConcurrencyRequest) :
    serve answer capacity anchor pred real (request :: rest) =
      match serveRequest answer capacity anchor pred real request with
      | (some reply, pred, real) =>
          { serve answer capacity anchor pred real rest with
            replies := (request, reply) :: (serve answer capacity anchor pred real rest).replies }
      | (none, pred, real) => ⟨pred, real, rest ++ [request], []⟩ := rfl

theorem store_larger {larger : Nat} (grows : capacity ≤ larger) (room : real.next < capacity)
    (key value : Str) : real.store larger key value = real.store capacity key value := by
  unfold LinkedNode.store
  rw [if_pos room, if_pos (room.trans_le grows)]

/-- What `help_others` left, served by a loop with more room: both together are one loop
with that room over the queue in another order. -/
theorem serve_resume {larger : Nat} (grows : capacity ≤ larger)
    (truthful : Truthful answer) (anchor : Str) (pred real : LinkedNode)
    (requests : List ConcurrencyRequest) :
    ∃ order : List ConcurrencyRequest, order.Perm requests ∧
      aboveOffers anchor order = LinkedNode.postponed capacity (aboveOffers anchor requests) real ∧
      let first := helpOthers capacity anchor pred real requests
      let second := serve answer larger anchor first.pred first.real first.requests
      serve answer larger anchor pred real order =
        { second with replies := first.replies ++ second.replies } := by
  induction requests generalizing pred real with
  | nil => exact ⟨[], List.Perm.refl _, rfl, rfl⟩
  | cons request rest ih =>
      unfold helpOthers
      rw [serve_cons]
      by_cases below : request.tag.val < anchor
      · rw [serveRequest_below below]
        obtain ⟨order, perm, offers, whole⟩ :=
          ih (pred.store (helpCapacity pred.type) request.tag.val request.content.val).2 real
        refine ⟨request :: order, perm.cons request, ?_, ?_⟩
        · rw [aboveOffers_cons_below below, aboveOffers_cons_below below]
          exact offers
        · rw [serve_cons, serveRequest_below below]
          simp only [whole]
          rfl
      · rw [serveRequest_above below]
        by_cases room : real.next < capacity
        · have stored : (real.store capacity request.tag.val request.content.val).1 = true := by
            rw [LinkedNode.store_fst]
            exact decide_eq_true room
          obtain ⟨order, perm, offers, whole⟩ :=
            ih pred (real.store capacity request.tag.val request.content.val).2
          refine ⟨request :: order, perm.cons request, ?_, ?_⟩
          · rw [aboveOffers_cons_above below, aboveOffers_cons_above below, LinkedNode.postponed, if_pos room]
            exact congrArg (List.cons _) offers
          · rw [serve_cons, serveRequest_above below, store_larger grows room, stored, truthful.success]
            simp only [whole]
            rfl
        · -- nothing was served here, and the stuck request goes to the end
          rw [LinkedNode.store_refused room]
          refine ⟨rest ++ [request], List.perm_append_singleton request rest, ?_, rfl⟩
          rw [aboveOffers_append, aboveOffers_cons_above below, aboveOffers_cons_above below,
            LinkedNode.postponed, if_neg room]
          rfl

theorem store_congr_entries {left right : LinkedNode} (same : left.entries = right.entries)
    (capacity : Nat) (key value : Bytes16) :
    (left.store capacity key.val value.val).1 = (right.store capacity key.val value.val).1 ∧
      (left.store capacity key.val value.val).2.entries =
        (right.store capacity key.val value.val).2.entries := by
  have next := (LinkedNode.slots_of_entries same).1
  have found := LinkedNode.find_of_entries same key
  refine ⟨by rw [LinkedNode.store_fst, LinkedNode.store_fst, next], ?_⟩
  by_cases room : left.next < capacity
  · rw [LinkedNode.entries_store key value room, LinkedNode.entries_store key value (next ▸ room), found,
      same]
  · unfold LinkedNode.store
    rw [if_neg room, if_neg (next ▸ room)]
    exact same

/-- A loop reads its node's records only. -/
theorem serve_congr_entries {left right : LinkedNode} (same : left.entries = right.entries)
    (requests : List ConcurrencyRequest) :
    (serve answer capacity anchor pred left requests).pred =
        (serve answer capacity anchor pred right requests).pred ∧
      (serve answer capacity anchor pred left requests).real.entries =
        (serve answer capacity anchor pred right requests).real.entries ∧
      (serve answer capacity anchor pred left requests).requests =
        (serve answer capacity anchor pred right requests).requests ∧
      (serve answer capacity anchor pred left requests).replies =
        (serve answer capacity anchor pred right requests).replies := by
  induction requests generalizing pred left right with
  | nil => exact ⟨rfl, same, rfl, rfl⟩
  | cons request rest ih =>
      rw [serve_cons, serve_cons]
      by_cases below : request.tag.val < anchor
      · rw [serveRequest_below below, serveRequest_below below]
        obtain ⟨preds, reals, left, replies⟩ := @ih
          (pred.store (helpCapacity pred.type) request.tag.val request.content.val).2 _ _ same
        exact ⟨preds, reals, left, congrArg (List.cons (request, _)) replies⟩
      · rw [serveRequest_above below, serveRequest_above below]
        obtain ⟨answers, contents⟩ := store_congr_entries same capacity request.tag request.content
        rw [answers]
        cases answer (right.store capacity request.tag.val request.content.val).1 with
        | none => exact ⟨rfl, contents, rfl, rfl⟩
        | some reply =>
            obtain ⟨preds, reals, left, replies⟩ := @ih pred _ _ contents
            exact ⟨preds, reals, left, congrArg (List.cons (request, _)) replies⟩

/-! ### Whom a loop tells that its record is stored -/

/-- While the node has room, the first request that is not refused is told so. A full
predecessor refuses. -/
theorem serve_acknowledges_iff (truthful : Truthful answer) (room : real.next < capacity) :
    (∃ answered ∈ (serve answer capacity anchor pred real requests).replies,
        answered.2.succeed = true) ↔
      ∃ request ∈ requests, request.tag.val < anchor → pred.next < helpCapacity pred.type := by
  induction requests with
  | nil =>
      apply iff_of_false
      · rintro ⟨_, isMember, _⟩
        cases isMember
      · rintro ⟨_, isMember, _⟩
        cases isMember
  | cons request rest ih =>
      rw [serve_cons]
      by_cases below : request.tag.val < anchor
      · rw [serveRequest_below below]
        by_cases predRoom : pred.next < helpCapacity pred.type
        · apply iff_of_true
          · refine ⟨_, List.mem_cons_self, ?_⟩
            rw [LinkedNode.store_fst]
            exact decide_eq_true predRoom
          · exact ⟨request, List.mem_cons_self, fun _ => predRoom⟩
        · -- a full predecessor stays as it is
          rw [LinkedNode.store_refused predRoom]
          simp only [List.exists_mem_cons_iff]
          rw [ih]
          simp [below, predRoom]
      · rw [serveRequest_above below]
        have stored : (real.store capacity request.tag.val request.content.val).1 = true := by
          rw [LinkedNode.store_fst]
          exact decide_eq_true room
        rw [stored, truthful.success]
        exact iff_of_true ⟨_, List.mem_cons_self, rfl⟩
          ⟨request, List.mem_cons_self, fun isBelow => absurd isBelow below⟩

/-- When the whole queue is answered, some request for the predecessor is told that it
is stored exactly when there is one and the predecessor has room. -/
theorem serve_acknowledges_below_iff
    (answered : (serve answer capacity anchor pred real requests).requests = []) :
    (∃ answered ∈ (serve answer capacity anchor pred real requests).replies,
        answered.2.succeed = true ∧ answered.1.tag.val < anchor) ↔
      ∃ request ∈ requests, request.tag.val < anchor ∧ pred.next < helpCapacity pred.type := by
  induction requests generalizing real with
  | nil =>
      apply iff_of_false
      · rintro ⟨_, isMember, _⟩
        cases isMember
      · rintro ⟨_, isMember, _⟩
        cases isMember
  | cons request rest ih =>
      rw [serve_cons] at answered ⊢
      by_cases below : request.tag.val < anchor
      · rw [serveRequest_below below] at answered ⊢
        by_cases predRoom : pred.next < helpCapacity pred.type
        · apply iff_of_true
          · refine ⟨_, List.mem_cons_self, ?_, below⟩
            rw [LinkedNode.store_fst]
            exact decide_eq_true predRoom
          · exact ⟨request, List.mem_cons_self, below, predRoom⟩
        · rw [LinkedNode.store_refused predRoom] at answered ⊢
          simp only [List.exists_mem_cons_iff]
          rw [ih answered]
          simp [predRoom]
      · rw [serveRequest_above below] at answered ⊢
        cases isAnswer : answer (real.store capacity request.tag.val request.content.val).1 with
        | none =>
            rw [isAnswer] at answered
            exact absurd answered (List.append_ne_nil_of_right_ne_nil _ (List.cons_ne_nil _ _))
        | some reply =>
            rw [isAnswer] at answered
            simp only [List.exists_mem_cons_iff]
            rw [ih answered]
            simp [below]

/-- The requests for the node that are told so are those whose records it takes. -/
theorem mem_taken_iff (truthful : Truthful answer) {pair : KV} :
    pair ∈ LinkedNode.taken capacity (aboveOffers anchor requests) real ↔
      ∃ answered ∈ (serve answer capacity anchor pred real requests).replies,
        answered.2.succeed = true ∧ ¬ answered.1.tag.val < anchor ∧ offerOf answered.1 = pair := by
  induction requests generalizing pred real with
  | nil =>
      apply iff_of_false
      · intro isTaken
        cases isTaken
      · rintro ⟨_, isMember, _⟩
        cases isMember
  | cons request rest inductionHypothesis =>
      rw [serve_cons]
      by_cases below : request.tag.val < anchor
      · rw [serveRequest_below below, aboveOffers_cons_below below]
        simp only [List.exists_mem_cons_iff]
        rw [@inductionHypothesis (pred.store (helpCapacity pred.type) request.tag.val request.content.val).2]
        simp [below]
      · rw [serveRequest_above below, aboveOffers_cons_above below, LinkedNode.taken]
        by_cases room : real.next < capacity
        · have stored : (real.store capacity request.tag.val request.content.val).1 = true := by
            rw [LinkedNode.store_fst]
            exact decide_eq_true room
          rw [if_pos room, stored, truthful.success]
          rw [List.mem_cons, List.exists_mem_cons_iff]
          apply or_congr
          · simp [below, eq_comm]
          · exact inductionHypothesis
        · rw [if_neg room, LinkedNode.store_refused room]
          cases isAnswer : answer false with
          | none => simp
          | some reply =>
              have refused := (truthful.failure reply isAnswer)
              simp only [List.exists_mem_cons_iff]
              rw [← inductionHypothesis, LinkedNode.taken_of_full room, refused]
              simp

/-- A predecessor that takes a record had room for one. -/
theorem pred_room_of_acknowledged {answered : ConcurrencyRequest × Reply}
    (isReply : answered ∈ (serve answer capacity anchor pred real requests).replies)
    (succeed : answered.2.succeed = true) (below : answered.1.tag.val < anchor) :
    pred.next < helpCapacity pred.type := by
  induction requests generalizing pred real with
  | nil => cases isReply
  | cons request rest inductionHypothesis =>
      rw [serve_cons] at isReply
      by_cases isBelow : request.tag.val < anchor
      · rw [serveRequest_below isBelow] at isReply
        rcases List.mem_cons.mp isReply with isFirst | isLater
        · rw [isFirst, LinkedNode.store_fst] at succeed
          exact of_decide_eq_true succeed
        · have grows := (LinkedNode.store_next_bounds pred (helpCapacity pred.type) request.tag.val
            request.content.val).1
          have room := inductionHypothesis isLater
          rw [store_type] at room
          exact grows.trans_lt room
      · rw [serveRequest_above isBelow] at isReply
        cases isAnswer : answer (real.store capacity request.tag.val request.content.val).1 with
        | none =>
            rw [isAnswer] at isReply
            cases isReply
        | some reply =>
            rw [isAnswer] at isReply
            rcases List.mem_cons.mp isReply with isFirst | isLater
            · rw [isFirst] at below
              exact absurd below isBelow
            · exact inductionHypothesis isLater

/-- When all of them find room, every request for the node is told that it is stored. -/
theorem serve_tells_all (success : answer true = some ⟨true, false⟩)
    (fits : LinkedNode.FitsAll capacity (aboveOffers anchor requests) real) :
    ∀ request ∈ requests, ¬ request.tag.val < anchor →
      (request, ⟨true, false⟩) ∈ (serve answer capacity anchor pred real requests).replies := by
  induction requests generalizing pred real with
  | nil =>
      intro _ isMember
      cases isMember
  | cons first rest ih =>
      intro request isMember above
      rw [serve_cons]
      by_cases below : first.tag.val < anchor
      · rw [serveRequest_below below]
        rw [aboveOffers_cons_below below] at fits
        rcases List.mem_cons.mp isMember with isFirst | later
        · rw [isFirst] at above
          exact absurd below above
        · exact List.mem_cons_of_mem _ (ih fits request later above)
      · rw [serveRequest_above below]
        rw [aboveOffers_cons_above below] at fits
        have stored : (real.store capacity first.tag.val first.content.val).1 = true := by
          rw [LinkedNode.store_fst]
          exact decide_eq_true fits.1
        rw [stored, success]
        rcases List.mem_cons.mp isMember with isFirst | later
        · rw [isFirst]
          exact List.mem_cons_self
        · exact List.mem_cons_of_mem _ (ih fits.2 request later above)

/-- The first request whose record is new to a predecessor with room is acknowledged. -/
theorem acknowledged_of_new (pred real : LinkedNode)
    (requests : List ConcurrencyRequest) (room : pred.next < helpCapacity pred.type)
    (answered : (serve answer capacity anchor pred real requests).requests = [])
    (new : ∃ request ∈ requests, request.tag.val < anchor ∧ pred.find request.tag.val = none) :
    ∃ answered ∈ (serve answer capacity anchor pred real requests).replies, answered.2.succeed = true ∧
      answered.1.tag.val < anchor ∧ pred.find answered.1.tag.val = none := by
  induction requests generalizing real with
  | nil =>
      obtain ⟨request, isMember, _⟩ := new
      cases isMember
  | cons request rest ih =>
      unfold serve at answered ⊢
      by_cases below : request.tag.val < anchor
      · rw [serveRequest_below below] at answered ⊢
        rcases LinkedNode.store_cases pred (helpCapacity pred.type) request.tag.val request.content.val with
          ⟨full, _⟩ | ⟨_, found, eq⟩ | ⟨_, absent, eq⟩
        · exact absurd room full
        · -- a known record leaves the predecessor as it was
          rw [eq] at answered ⊢
          obtain ⟨other, isMember, facts⟩ := new
          rcases List.mem_cons.mp isMember with isFirst | later
          · rw [isFirst] at facts
            rw [facts.2] at found
            cases found
          · obtain ⟨reply, inReplies, acknowledged⟩ := ih real answered ⟨other, later, facts⟩
            exact ⟨reply, List.mem_cons_of_mem _ inReplies, acknowledged⟩
        · rw [eq]
          exact ⟨_, List.mem_cons_self, rfl, below, absent⟩
      · rw [serveRequest_above below] at answered ⊢
        cases isAnswer : answer (real.store capacity request.tag.val request.content.val).1 with
        | none =>
            rw [isAnswer] at answered
            exact absurd answered (List.append_ne_nil_of_right_ne_nil _ (List.cons_ne_nil _ _))
        | some reply =>
            rw [isAnswer] at answered
            obtain ⟨other, isMember, facts⟩ := new
            rcases List.mem_cons.mp isMember with isFirst | later
            · rw [isFirst] at facts
              exact absurd facts.1 below
            · obtain ⟨reply, inReplies, acknowledged⟩ := ih _ answered ⟨other, later, facts⟩
              exact ⟨reply, List.mem_cons_of_mem _ inReplies, acknowledged⟩

end DiStore.Cluster
