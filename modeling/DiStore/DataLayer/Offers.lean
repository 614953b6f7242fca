import DiStore.DataLayer.Entries

/-!
Contract: which of the offers made to a node one after the other it takes.

Owns: the offers up to the first that finds no room, the order in which they are made again
in a larger node, and at which slots the keys of those that were taken match.

Does not own: who makes the offers (`Cluster.QueueOrder`).
-/

set_option autoImplicit false

namespace DiStore.DataLayer.LinkedNode

variable [Digest] {node left right : LinkedNode} {key value : Bytes16} {capacity index : Nat}

/-- The offers up to the first that finds no room. -/
def taken (capacity : Nat) : List KV → LinkedNode → List KV
  | [], _ => []
  | offer :: offers, node =>
      if node.next < capacity then
        offer :: taken capacity offers (node.store capacity offer.key.val offer.value.val).2
      else []

/-- The offers, but the first that finds no room is the last. -/
def postponed (capacity : Nat) : List KV → LinkedNode → List KV
  | [], _ => []
  | offer :: offers, node =>
      if node.next < capacity then
        offer :: postponed capacity offers (node.store capacity offer.key.val offer.value.val).2
      else offers ++ [offer]

theorem storeAll_cons (capacity : Nat) (offer : KV) (offers : List KV) (node : LinkedNode) :
    node.storeAll capacity (offer :: offers) =
      (node.store capacity offer.key.val offer.value.val).2.storeAll capacity offers := rfl

/-- A full node stays as it is. -/
theorem storeAll_of_full (full : ¬ node.next < capacity) (offers : List KV) : node.storeAll capacity offers = node := by
  induction offers with
  | nil => rfl
  | cons offer offers inductionHypothesis => rw [storeAll_cons, store_refused full, inductionHypothesis]

theorem storeAll_next_le (bounded : node.next ≤ capacity) (offers : List KV) :
    (node.storeAll capacity offers).next ≤ capacity := by
  induction offers generalizing node with
  | nil => exact bounded
  | cons offer offers inductionHypothesis => exact inductionHypothesis (store_next_le bounded _ _)

/-- Offers of which one finds no room fill the node, also in the other order. -/
theorem le_storeAll_postponed {larger : Nat} (grows : capacity ≤ larger) {offers : List KV}
    (refused : ¬ FitsAll capacity offers node) :
    capacity ≤ (node.storeAll larger (postponed capacity offers node)).next := by
  induction offers generalizing node with
  | nil => exact absurd trivial refused
  | cons offer offers inductionHypothesis =>
      by_cases room : node.next < capacity
      · have same : node.store larger offer.key.val offer.value.val =
            node.store capacity offer.key.val offer.value.val := by
          unfold store
          rw [if_pos room, if_pos (room.trans_le grows)]
        rw [postponed, if_pos room, storeAll_cons, same]
        exact inductionHypothesis fun later => refused ⟨room, later⟩
      · exact (not_lt.mp room).trans (storeAll_next_bounds _ node larger).1

theorem taken_of_full (full : ¬ node.next < capacity) (offers : List KV) : taken capacity offers node = [] := by
  cases offers with
  | nil => rfl
  | cons offer offers => rw [taken, if_neg full]

/-! ### The slots of a node that grows -/

theorem store_matchesAt (below : index < node.next) (text key value : Str) :
    (node.store capacity key value).2.matchesAt text index = node.matchesAt text index := by
  rcases store_cases node capacity key value with ⟨_, isStored⟩ | ⟨_, _, isStored⟩ | ⟨_, _, isStored⟩
  · rw [isStored]
  · rw [isStored]
  · rw [isStored]
    exact append_matchesAt_of_lt key value below

/-- Slots that hold a record keep it. -/
theorem storeAll_matchesAt (below : index < node.next) (text : Str) (offers : List KV) :
    (node.storeAll capacity offers).matchesAt text index = node.matchesAt text index := by
  induction offers generalizing node with
  | nil => rfl
  | cons offer offers inductionHypothesis =>
      have grows := (store_next_bounds node capacity offer.key.val offer.value.val).1
      rw [storeAll_cons, inductionHypothesis (below.trans_le grows), store_matchesAt below]

/-- What is taken can be found. -/
theorem matchesAt_of_taken {offers : List KV} {pair : KV} (isTaken : pair ∈ taken capacity offers node) :
    ∃ index < (node.storeAll capacity offers).next, (node.storeAll capacity offers).matchesAt pair.key.val index := by
  induction offers generalizing node with
  | nil => cases isTaken
  | cons offer offers inductionHypothesis =>
      rw [taken] at isTaken
      by_cases room : node.next < capacity
      · rw [if_pos room] at isTaken
        rw [storeAll_cons]
        rcases List.mem_cons.mp isTaken with isFirst | isLater
        · have found : ((node.store capacity offer.key.val offer.value.val).2.find offer.key.val).isSome := by
            apply find_store_isSome
            rw [store_fst]
            exact decide_eq_true room
          rw [find_isSome_eq, Option.isSome_iff_exists] at found
          rcases found with ⟨index, isFound⟩
          rcases findIndex_eq_some_iff.mp isFound with ⟨bound, isMatch, _⟩
          have grows := (storeAll_next_bounds offers
            (node.store capacity offer.key.val offer.value.val).2 capacity).1
          refine ⟨index, bound.trans_le grows, ?_⟩
          rw [isFirst, storeAll_matchesAt bound]
          exact isMatch
        · exact inductionHypothesis isLater
      · rw [if_neg room] at isTaken
        cases isTaken

/-- A slot that was free before holds the key of an offer that was taken, and no slot before
it matches that key. -/
theorem taken_of_new_slot {offers : List KV} (isFree : node.next ≤ index)
    (bound : index < (node.storeAll capacity offers).next) :
    ∃ pair ∈ taken capacity offers node,
      ∀ earlier < index, (node.storeAll capacity offers).matchesAt pair.key.val earlier = false := by
  induction offers generalizing node with
  | nil => exact absurd bound (not_lt.mpr isFree)
  | cons offer offers inductionHypothesis =>
      rw [storeAll_cons] at bound ⊢
      rcases store_cases node capacity offer.key.val offer.value.val with
        ⟨full, isStored⟩ | ⟨room, _, isStored⟩ | ⟨room, absent, isStored⟩
      · rw [isStored, storeAll_of_full full] at bound
        exact absurd bound (not_lt.mpr isFree)
      · rw [isStored] at bound ⊢
        rcases inductionHypothesis isFree bound with ⟨pair, isTaken, isNew⟩
        refine ⟨pair, ?_, isNew⟩
        rw [taken, if_pos room, isStored]
        exact List.mem_cons_of_mem _ isTaken
      · rw [taken, if_pos room, isStored]
        rw [isStored] at bound
        by_cases isFirst : index = node.next
        · refine ⟨offer, List.mem_cons_self, fun earlier before => ?_⟩
          have below : earlier < node.next := isFirst ▸ before
          rw [storeAll_matchesAt (by rw [append_next]; omega), append_matchesAt_of_lt _ _ below]
          have noIndex : node.findIndex offer.key.val = none := by
            rw [← Option.not_isSome_iff_eq_none, ← find_isSome_eq, absent]
            exact Bool.false_ne_true
          exact findIndex_eq_none_iff.mp noIndex earlier below
        · rcases inductionHypothesis (by rw [append_next]; omega) bound with ⟨pair, isTaken, isNew⟩
          exact ⟨pair, List.mem_cons_of_mem _ isTaken, isNew⟩

theorem matchesAt_of_entries (same : left.entries = right.entries) (text : Str) (bound : index < left.next) :
    left.matchesAt text index = right.matchesAt text index := by
  rcases slots_of_entries same with ⟨_, fingerprints, pairs⟩
  rw [matchesAt, matchesAt, fingerprints index bound, pairs index bound]

/-! ### Records in the first bytes of an image -/

/-- A record with the key lies in the first `size` bytes. -/
def CarriedIn (node : LinkedNode) (size : Nat) (key : Bytes16) : Prop :=
  ∃ index < node.next, node.matchesAt key.val index = true ∧ pairsOffset + 32 * (index + 1) ≤ size

theorem carriedIn_of_entries {size : Nat} (same : left.entries = right.entries) :
    left.CarriedIn size key ↔ right.CarriedIn size key := by
  have sameNext := (slots_of_entries same).1
  constructor
  · rintro ⟨index, bound, isMatch, inside⟩
    exact ⟨index, sameNext ▸ bound, matchesAt_of_entries same key.val bound ▸ isMatch, inside⟩
  · rintro ⟨index, bound, isMatch, inside⟩
    have boundLeft : index < left.next := sameNext ▸ bound
    exact ⟨index, boundLeft, (matchesAt_of_entries same key.val boundLeft).trans isMatch, inside⟩

omit [Digest] in
/-- A node of a data type has its first `capacity` records, and no other, in its bytes. -/
theorem inside_sizeofNode_iff {type : LinkedNodeType} (isData : type.IsData) (index : Nat) :
    pairsOffset + 32 * (index + 1) ≤ sizeofNode type ↔ index < type.capacity := by
  have atLeast := pairsOffset_le_sizeofNode isData
  have atMost := sizeofNode_le_add_four isData
  constructor
  · intro inside
    omega
  · intro below
    omega

theorem carriedIn_sizeofNode_iff {type : LinkedNodeType} (isData : type.IsData) :
    node.CarriedIn (sizeofNode type) key ↔
      ∃ index < node.next, node.matchesAt key.val index = true ∧ index < type.capacity := by
  unfold CarriedIn
  simp only [inside_sizeofNode_iff isData]

end DiStore.DataLayer.LinkedNode
