import DiStore.Cluster.PutWinner
import DiStore.Common.Digests
import Mathlib.Data.List.Induction
import Mathlib.Data.Nat.Find

/-!
Contract: the split of a node inside its own memory.

Owns: `store` from byte pointers, the two loops of `inplace_split_node`, and when it
splits a node as `out_of_place_split_node` does.

Does not own: the split that the puts use (`Cluster.SplitNode`); no put calls this one.
-/

set_option autoImplicit false

namespace DiStore.DataLayer.LinkedNode

/-- `store(const_byte_ptr_t, ..)`, of a whole key and a whole value: it looks for no key. -/
def storeBytes [Digest] (node : LinkedNode) (capacity : Nat) (pair : KV) : Bool × LinkedNode :=
  if node.next < capacity then (true, node.append pair.key.val pair.value.val) else (false, node)

/-- Fingerprint, key and value of the slot `source`, copied to the slot `target`. -/
def moveSlot (node : LinkedNode) (target source : Nat) : LinkedNode :=
  { node with
    fingerprints := Function.update node.fingerprints target (node.fingerprints source)
    pairs := Function.update node.pairs target (node.pairs source) }

/-- The entry in a slot, used or not. -/
def slot (node : LinkedNode) (index : Nat) : UInt8 × KV := (node.fingerprints index, node.pairs index)

end DiStore.DataLayer.LinkedNode

namespace DiStore.Cluster

open DiStore.Concurrency DiStore.DataLayer DiStore.Library DiStore.Memory DiStore.SearchLayer

/-! ### The loop that closes the gaps -/

/-- The variables of the loop that closes the gaps: the node and `picked`. -/
structure Compaction where
  node : LinkedNode
  picked : Nat → Bool

namespace Compaction

/-- The body of the inner loop. -/
def move (target : Nat) (state : Compaction) (source : Nat) : Compaction :=
  if state.picked source then
    { node := state.node.moveSlot target source
      picked := Function.update (Function.update state.picked target true) source false }
  else state

/-- One round of the outer loop. The inner loop goes on after it has found a record. -/
def fillSlot (total : Nat) (state : Compaction) (target : Nat) : Compaction :=
  if state.picked target then state
  else (List.range' target (total - target)).foldl (move target) state

def compact (total : Nat) (state : Compaction) : Compaction :=
  (List.range total).foldl (fillSlot total) state

variable {target total : Nat} {state : Compaction}

/-- The inner loop takes every picked record to the target, and so leaves the last one there. -/
structure Moved (target : Nat) (places : List Nat) (before after : Compaction) : Prop where
  picked : ∀ index, index ≠ target → after.picked index = (before.picked index && !places.contains index)
  others : ∀ index, index ≠ target → after.node.slot index = before.node.slot index
  last : after.node.slot target =
    before.node.slot (((places.filter before.picked).getLast?).getD target)

theorem move_of_picked {source : Nat} (isPicked : state.picked source = true) :
    move target state source =
      ⟨state.node.moveSlot target source,
        Function.update (Function.update state.picked target true) source false⟩ := if_pos isPicked

theorem move_of_free {source : Nat} (isFree : state.picked source = false) :
    move target state source = state := if_neg (Bool.eq_false_iff.mp isFree)

theorem moveSlot_slot (node : LinkedNode) (target source index : Nat) :
    (node.moveSlot target source).slot index = if index = target then node.slot source else node.slot index := by
  show (Function.update node.fingerprints target (node.fingerprints source) index,
    Function.update node.pairs target (node.pairs source) index) = _
  by_cases isTarget : index = target
  · rw [if_pos isTarget, isTarget, Function.update_self, Function.update_self]
    rfl
  · rw [if_neg isTarget, Function.update_of_ne isTarget, Function.update_of_ne isTarget]
    rfl

theorem moved (target : Nat) (places : List Nat) (state : Compaction) (distinct : places.Nodup)
    (apart : target ∉ places) : Moved target places state (places.foldl (move target) state) := by
  induction places using List.reverseRecOn with
  | nil =>
      constructor
      case picked =>
        intro index _
        show state.picked index = (state.picked index && !([] : List Nat).contains index)
        rw [List.contains_nil, Bool.not_false, Bool.and_true]
      case others => exact fun _ _ => rfl
      case last => rfl
  | append_singleton front source inductionHypothesis =>
      rw [List.nodup_append] at distinct
      rw [List.mem_append, List.mem_singleton, not_or] at apart
      have before := inductionHypothesis distinct.1 apart.1
      have sourceApart : source ≠ target := Ne.symm apart.2
      have notInFront : front.contains source = false := by
        rw [← Bool.not_eq_true, List.contains_iff_mem]
        exact fun inFront => distinct.2.2 source inFront source List.mem_cons_self rfl
      -- the loop has not come to this slot yet
      have marked : (front.foldl (move target) state).picked source = state.picked source := by
        rw [before.picked source sourceApart, notInFront, Bool.not_false, Bool.and_true]
      rw [List.foldl_append]
      show Moved target (front ++ [source]) state (move target (front.foldl (move target) state) source)
      by_cases isPicked : state.picked source = true
      · rw [move_of_picked (marked.trans isPicked)]
        constructor
        case picked =>
          intro index differs
          show Function.update (Function.update (front.foldl (move target) state).picked target true) source
            false index = _
          by_cases isSource : index = source
          · rw [isSource, Function.update_self]
            simp
          · rw [Function.update_of_ne isSource, Function.update_of_ne differs, before.picked index differs]
            simp [isSource]
        case others =>
          intro index differs
          show (LinkedNode.moveSlot _ target source).slot index = _
          rw [moveSlot_slot, if_neg differs]
          exact before.others index differs
        case last =>
          show (LinkedNode.moveSlot _ target source).slot target = _
          rw [moveSlot_slot, if_pos rfl, before.others source sourceApart, List.filter_append,
            List.filter_cons_of_pos isPicked, List.filter_nil, List.getLast?_concat]
          rfl
      · have free : state.picked source = false := Bool.eq_false_iff.mpr isPicked
        rw [move_of_free (marked.trans free)]
        constructor
        case picked =>
          intro index differs
          rw [before.picked index differs]
          by_cases isSource : index = source
          · rw [isSource, free, Bool.false_and, Bool.false_and]
          · simp [isSource]
        case others => exact before.others
        case last =>
          rw [before.last, List.filter_append, List.filter_cons_of_neg isPicked, List.filter_nil, List.append_nil]

/-- A round over a slot with a picked record, or without picked records from it on. -/
theorem fillSlot_idle (idle : state.picked target = true ∨
    ∀ index, target ≤ index → index < total → state.picked index = false) :
    fillSlot total state target = state := by
  unfold fillSlot
  rcases idle with isPicked | none
  · rw [if_pos isPicked]
  · split
    next => rfl
    next =>
      have stays : ∀ places : List Nat, (∀ index ∈ places, state.picked index = false) →
          places.foldl (move target) state = state := by
        intro places free
        induction places with
        | nil => rfl
        | cons first rest inductionHypothesis =>
            rw [List.foldl_cons, move_of_free (free first List.mem_cons_self)]
            exact inductionHypothesis fun index isMember => free index (List.mem_cons_of_mem _ isMember)
      apply stays
      intro index isMember
      have bounds := List.mem_range'_1.mp isMember
      exact none index bounds.1 (by omega)

theorem foldl_fillSlot_idle (places : List Nat)
    (idle : ∀ target ∈ places, state.picked target = true ∨
      ∀ index, target ≤ index → index < total → state.picked index = false) :
    places.foldl (fillSlot total) state = state := by
  induction places with
  | nil => rfl
  | cons first rest inductionHypothesis =>
      rw [List.foldl_cons, fillSlot_idle (idle first List.mem_cons_self)]
      exact inductionHypothesis fun target isMember => idle target (List.mem_cons_of_mem _ isMember)

/-- The slots after the loops: the first gap has the last picked record behind it, and all
other slots have what they had. -/
theorem compact_slot (gap : Nat) (bound : gap < total) (isGap : state.picked gap = false)
    (full : ∀ index < gap, state.picked index = true) (index : Nat) :
    (compact total state).node.slot index =
      if index = gap then
        state.node.slot
          ((((List.range' (gap + 1) (total - (gap + 1))).filter state.picked).getLast?).getD gap)
      else state.node.slot index := by
  have first : (List.range gap).foldl (fillSlot total) state = state :=
    foldl_fillSlot_idle _ fun target isMember => Or.inl (full target (List.mem_range.mp isMember))
  have inner : List.range' gap (total - gap) = gap :: List.range' (gap + 1) (total - (gap + 1)) := by
    rw [← List.range'_succ]
    congr 1
    omega
  have parts : List.range total = List.range gap ++ List.range' gap (total - gap) := by
    have joined := @List.range'_append_1 0 gap (total - gap)
    rw [Nat.zero_add, Nat.add_sub_cancel' bound.le] at joined
    rw [List.range_eq_range', List.range_eq_range']
    exact joined.symm
  have filled : fillSlot total state gap =
      (List.range' (gap + 1) (total - (gap + 1))).foldl (move gap) state := by
    unfold fillSlot
    rw [if_neg (by rw [isGap]; exact Bool.false_ne_true), inner, List.foldl_cons, move_of_free isGap]
  have after := moved gap (List.range' (gap + 1) (total - (gap + 1))) state List.nodup_range'
    (fun isMember => by have bounds := List.mem_range'_1.mp isMember; omega)
  rw [← filled] at after
  -- nothing is picked any more
  have rest : (List.range' (gap + 1) (total - (gap + 1))).foldl (fillSlot total) (fillSlot total state gap) =
      fillSlot total state gap := by
    apply foldl_fillSlot_idle
    intro target isMember
    apply Or.inr
    intro index above below
    have bounds := List.mem_range'_1.mp isMember
    rw [after.picked index (by omega)]
    have isInner : (List.range' (gap + 1) (total - (gap + 1))).contains index = true := by
      rw [List.contains_iff_mem, List.mem_range'_1]
      omega
    rw [isInner, Bool.not_true, Bool.and_false]
  unfold compact
  rw [parts, inner, List.foldl_append, first, List.foldl_cons, rest]
  by_cases isTarget : index = gap
  · rw [if_pos isTarget, isTarget]
    exact after.last
  · rw [if_neg isTarget]
    exact after.others index isTarget

end Compaction

/-! ### The split -/

variable [Digest]

/-- One round of the loop that stores the records of the right node. -/
def migrateRecord (source : LinkedNode) (picked : Nat → Bool) (right : LinkedNode) (index : Nat) : LinkedNode :=
  if picked index then right else (right.storeBytes LinkedNodeType.type16.capacity (source.pairs index)).2

def migrate (source : LinkedNode) (picked : Nat → Bool) (places : List Nat) (right : LinkedNode) : LinkedNode :=
  places.foldl (migrateRecord source picked) right

/-- `inplace_split_node`; `right` is the node behind the source buffer. -/
def inplaceSplitNode (source right : LinkedNode) (leftCap : Nat) : LinkedNode × LinkedNode × Str :=
  let (order, picked) := constructReorderMap source leftCap
  let anchor := (source.pairs (order leftCap)).key.val
  let picked := Function.update picked (order leftCap) false
  let right := migrate source picked (List.range source.next) { right with next := 0 }
  let left := (Compaction.compact source.next ⟨source, picked⟩).node
  ({ left with next := leftCap }, right, anchor)

theorem migrate_entries (source : LinkedNode) (picked : Nat → Bool) (places : List Nat) (right : LinkedNode)
    (room : right.next + places.length ≤ LinkedNodeType.type16.capacity) :
    (migrate source picked places right).entries =
      right.entries ++ ((places.filter fun index => !picked index).map source.pairs).map LinkedNode.entryOf := by
  induction places generalizing right with
  | nil =>
      show right.entries = right.entries ++ []
      rw [List.append_nil]
  | cons first rest inductionHypothesis =>
      rw [List.length_cons] at room
      show (migrate source picked rest (migrateRecord source picked right first)).entries = _
      by_cases isPicked : picked first = true
      · rw [migrateRecord, if_pos isPicked, List.filter_cons_of_neg (by simp [isPicked])]
        exact inductionHypothesis right (by omega)
      · rw [migrateRecord, if_neg isPicked, LinkedNode.storeBytes, if_pos (by omega),
          List.filter_cons_of_pos (by simp [isPicked]), inductionHypothesis _ (by rw [LinkedNode.append_next]; omega),
          LinkedNode.entries_append, List.append_assoc]
        rfl

/-- Two splits with the same anchor and the same sets of records on each side. -/
structure SplitAlike (first second : LinkedNode × LinkedNode × Str) : Prop where
  anchor : first.2.2 = second.2.2
  left : ∀ entry, entry ∈ first.1.entries ↔ entry ∈ second.1.entries
  right : ∀ entry, entry ∈ first.2.1.entries ↔ entry ∈ second.2.1.entries

/-- The record in a slot is among the `leftCap` smallest. -/
def GoesLeft (source : LinkedNode) (leftCap index : Nat) : Prop :=
  rankOf source (source.pairs index).key < leftCap

instance (source : LinkedNode) (leftCap : Nat) : DecidablePred (GoesLeft source leftCap) :=
  fun index => inferInstanceAs (Decidable (rankOf source (source.pairs index).key < leftCap))

/-- The records that go left from a slot on, in slot order. -/
def leftFrom (source : LinkedNode) (leftCap first : Nat) : List Nat :=
  (List.range' first (source.next - first)).filter fun index => GoesLeft source leftCap index

/-- The split in place, in terms of ranks. The first slot of a record that does not go left
takes the last record that does; all other slots stay. -/
structure SplitInPlace (source : LinkedNode) (leftCap gap : Nat) (left right : LinkedNode) (anchor : Str) :
    Prop where
  gapBound : gap < source.next
  isGap : ¬ GoesLeft source leftCap gap
  full : ∀ index < gap, GoesLeft source leftCap index
  leftNext : left.next = leftCap
  leftSlots : ∀ index, left.slot index =
    if index = gap then source.slot (((leftFrom source leftCap (gap + 1)).getLast?).getD gap)
    else source.slot index
  rightEntries : ∀ entry, entry ∈ right.entries ↔
    ∃ index < source.next, ¬ GoesLeft source leftCap index ∧ entry = LinkedNode.entryOf (source.pairs index)
  anchorHeld : ∃ index < source.next, ¬ GoesLeft source leftCap index ∧ (source.pairs index).key.val = anchor
  anchorLeast : ∀ index < source.next, ¬ GoesLeft source leftCap index →
    anchor ≤ (source.pairs index).key.val

variable {source left right : LinkedNode} {leftCap gap : Nat} {anchor : Str}

omit [Digest] in
theorem mem_leftFrom {first index : Nat} : index ∈ leftFrom source leftCap first ↔
    (first ≤ index ∧ index < source.next) ∧ GoesLeft source leftCap index := by
  unfold leftFrom
  rw [List.mem_filter, List.mem_range'_1, decide_eq_true_iff]
  apply and_congr_left
  intro _
  omega

omit [Digest] in
/-- The marks of `construct_reorder_map`, without the last one, are the ranks. -/
theorem picked_iff_goesLeft {picked : Nat → Bool} (distinct : source.DistinctKeys)
    (least : Least (fun index => (source.pairs index).key.val) source.next leftCap picked) {index : Nat}
    (bound : index < source.next) : picked index = true ↔ GoesLeft source leftCap index := by
  have distinctKeys : ∀ first < source.next, ∀ second < source.next,
      (source.pairs first).key.val = (source.pairs second).key.val → first = second :=
    fun first firstBound second secondBound same =>
      distinct first firstBound second secondBound (Subtype.ext same)
  rw [least.picked_iff distinctKeys bound]
  unfold GoesLeft rankOf LinkedNode.records
  rw [List.countP_map]
  rfl

omit [Digest] in
theorem length_leftFrom_zero (distinct : source.DistinctKeys) (room : leftCap ≤ source.next) :
    (leftFrom source leftCap 0).length = leftCap := by
  have least := select_least (fun index => (source.pairs index).key.val) room
  have same : (List.range source.next).countP (fun index => GoesLeft source leftCap index) =
      (List.range source.next).countP
        (select (fun index => (source.pairs index).key.val) source.next leftCap).picked := by
    apply List.countP_congr
    intro index isMember
    rw [picked_iff_goesLeft distinct least (List.mem_range.mp isMember)]
    exact decide_eq_true_iff
  unfold leftFrom
  rw [Nat.sub_zero, ← List.range_eq_range', ← List.countP_eq_length_filter, same]
  exact least.count

theorem inplaceSplitNode_spec (distinct : source.DistinctKeys) (few : source.next ≤ LinkedNodeType.type16.capacity)
    (room : leftCap < source.next) :
    ∃ gap, SplitInPlace source leftCap gap (inplaceSplitNode source right leftCap).1
      (inplaceSplitNode source right leftCap).2.1 (inplaceSplitNode source right leftCap).2.2 := by
  obtain ⟨bound, free, below, marks⟩ := select_last (fun index => (source.pairs index).key.val) room
  have least := select_least (fun index => (source.pairs index).key.val) room.le
  generalize (select (fun index => (source.pairs index).key.val) source.next leftCap).picked = picked
    at free below marks least
  have isPicked : ∀ index < source.next, (picked index = true ↔ GoesLeft source leftCap index) :=
    fun index isBelow => picked_iff_goesLeft distinct least isBelow
  have unpicked : ∀ index < source.next, (picked index = false ↔ ¬ GoesLeft source leftCap index) := by
    intro index isBelow
    rw [← isPicked index isBelow, Bool.not_eq_true]
  have unfolded : inplaceSplitNode source right leftCap =
      ({ (Compaction.compact source.next ⟨source, picked⟩).node with next := leftCap },
        migrate source picked (List.range source.next) { right with next := 0 },
        (source.pairs ((select (fun index => (source.pairs index).key.val) source.next
          (leftCap + 1)).order leftCap)).key.val) := by
    rw [← marks]
    rfl
  obtain ⟨gap, gapBound, isGap, full⟩ : ∃ gap < source.next, picked gap = false ∧
      ∀ index < gap, picked index = true := by
    obtain ⟨index, isBelow, isFree⟩ := least.exists_free room
    have found : ∃ index, picked index = false := ⟨index, isFree⟩
    refine ⟨Nat.find found, lt_of_le_of_lt (Nat.find_min' found isFree) isBelow, Nat.find_spec found, ?_⟩
    intro index earlier
    simpa using Nat.find_min found earlier
  rw [unfolded]
  refine ⟨gap, ?_⟩
  constructor
  case gapBound => exact gapBound
  case isGap => exact (unpicked gap gapBound).mp isGap
  case full => exact fun index earlier => (isPicked index (earlier.trans gapBound)).mp (full index earlier)
  case leftNext => rfl
  case leftSlots =>
    intro index
    have slots := @Compaction.compact_slot source.next ⟨source, picked⟩ gap gapBound isGap full index
    have same : (List.range' (gap + 1) (source.next - (gap + 1))).filter picked =
        leftFrom source leftCap (gap + 1) := by
      apply List.filter_congr
      intro place isMember
      have bounds := List.mem_range'_1.mp isMember
      rw [Bool.eq_iff_iff, isPicked place (by omega), decide_eq_true_iff]
    rw [← same]
    exact slots
  case rightEntries =>
    intro entry
    have start : LinkedNode.entries { right with next := 0 } = [] := rfl
    rw [migrate_entries source picked _ _ (by show 0 + _ ≤ _; rw [List.length_range]; omega), start,
      List.nil_append, List.mem_map]
    constructor
    · intro isEntry
      obtain ⟨pair, isPair, isEntry⟩ := isEntry
      obtain ⟨index, isMember, isIndex⟩ := List.mem_map.mp isPair
      obtain ⟨inRange, isFree⟩ := List.mem_filter.mp isMember
      have isBelow := List.mem_range.mp inRange
      refine ⟨index, isBelow, (unpicked index isBelow).mp (by simpa using isFree), ?_⟩
      rw [← isEntry, ← isIndex]
    · intro isEntry
      obtain ⟨index, isBelow, isRight, isEntry⟩ := isEntry
      refine ⟨source.pairs index, List.mem_map_of_mem ?_, isEntry.symm⟩
      rw [List.mem_filter, (unpicked index isBelow).mpr isRight]
      exact ⟨List.mem_range.mpr isBelow, rfl⟩
  case anchorHeld => exact ⟨_, bound, (unpicked _ bound).mp free, rfl⟩
  case anchorLeast =>
    exact fun index isBelow isRight => below index isBelow ((unpicked index isBelow).mpr isRight)

/-! ### Against the split out of place -/

omit [Digest] in
/-- The records that go left before a slot and from it on. -/
theorem leftFrom_split {first second : Nat} (ordered : first ≤ second) (within : second ≤ source.next) :
    leftFrom source leftCap first =
      ((List.range' first (second - first)).filter fun index => GoesLeft source leftCap index) ++
        leftFrom source leftCap second := by
  unfold leftFrom
  have joined := @List.range'_append_1 first (second - first) (source.next - second)
  rw [Nat.add_sub_cancel' ordered, show second - first + (source.next - second) = source.next - first by omega]
    at joined
  rw [← joined, List.filter_append]

omit [Digest] in
theorem filter_all_goesLeft {first count : Nat}
    (all : ∀ index, first ≤ index → index < first + count → GoesLeft source leftCap index) :
    ((List.range' first count).filter fun index => GoesLeft source leftCap index) = List.range' first count := by
  apply List.filter_eq_self.mpr
  intro index isMember
  have bounds := List.mem_range'_1.mp isMember
  exact decide_eq_true (all index bounds.1 bounds.2)

namespace SplitInPlace

variable (inPlace : SplitInPlace source leftCap gap left right anchor)

include inPlace

/-- As many records go left from the gap on as slots are left to fill. -/
theorem length_behind (distinct : source.DistinctKeys) (room : leftCap < source.next) :
    gap + (leftFrom source leftCap (gap + 1)).length = leftCap := by
  have all := length_leftFrom_zero distinct room.le
  rw [leftFrom_split (Nat.zero_le gap) inPlace.gapBound.le, Nat.sub_zero,
    filter_all_goesLeft (fun index _ earlier => inPlace.full index (by omega)),
    leftFrom_split (Nat.le_succ gap) inPlace.gapBound, List.length_append, List.length_range', List.length_append,
    Nat.succ_sub (le_refl gap), Nat.sub_self] at all
  have none : ((List.range' gap 1).filter fun index => GoesLeft source leftCap index) = [] := by
    apply List.filter_eq_nil_iff.mpr
    intro index isMember
    have bounds := List.mem_range'_1.mp isMember
    rw [show index = gap by omega, decide_eq_true_iff]
    exact inPlace.isGap
  rw [none] at all
  exact (by simpa using all)

theorem mem_left {entry : UInt8 × KV} :
    entry ∈ left.entries ↔ ∃ index < leftCap, entry = left.slot index := by
  rw [LinkedNode.mem_entries, inPlace.leftNext]
  rfl

/-- A record that is not to go left stays on the left, unless it lies in the gap. -/
theorem slot_of_ne {index : Nat} (differs : index ≠ gap) : left.slot index = source.slot index := by
  rw [inPlace.leftSlots, if_neg differs]

/-- The records behind a gap that is the only one: those up to the end of the left node, and
one more. -/
theorem behind_only_gap (distinct : source.DistinctKeys) (room : leftCap < source.next) (short : gap < leftCap)
    (only : ∀ index < leftCap, ¬ GoesLeft source leftCap index → index = gap) :
    ∃ last, leftFrom source leftCap leftCap = [last] ∧
      ((leftFrom source leftCap (gap + 1)).getLast?).getD gap = last := by
  have goesLeft : ∀ index, gap + 1 ≤ index → index < gap + 1 + (leftCap - (gap + 1)) →
      GoesLeft source leftCap index := by
    intro index above below
    by_contra isRight
    have isGap := only index (by omega) isRight
    omega
  have parts := @leftFrom_split source leftCap (gap + 1) leftCap short room.le
  rw [filter_all_goesLeft goesLeft] at parts
  have counted := inPlace.length_behind distinct room
  rw [parts, List.length_append, List.length_range'] at counted
  obtain ⟨last, isLast⟩ := List.length_eq_one_iff.mp
    (show (leftFrom source leftCap leftCap).length = 1 by omega)
  refine ⟨last, isLast, ?_⟩
  rw [parts, isLast, List.getLast?_concat]
  rfl

/-- The left node is right if and only if no more than one slot is to be filled. -/
theorem left_iff (distinct : source.DistinctKeys) (room : leftCap < source.next) :
    (∀ entry, entry ∈ left.entries ↔ ∃ index < source.next, GoesLeft source leftCap index ∧
        entry = source.slot index) ↔
      ∀ first < leftCap, ∀ second < leftCap, ¬ GoesLeft source leftCap first →
        ¬ GoesLeft source leftCap second → first = second := by
  constructor
  · intro agrees
    have isGap : ∀ index < leftCap, ¬ GoesLeft source leftCap index → index = gap := by
      intro index below isRight
      by_contra differs
      have onLeft := inPlace.mem_left.mpr ⟨index, below, (inPlace.slot_of_ne differs).symm⟩
      obtain ⟨other, otherBelow, otherLeft, same⟩ := (agrees _).mp onLeft
      have sameKey : (source.pairs index).key = (source.pairs other).key :=
        congrArg (fun entry : UInt8 × KV => entry.2.key) same
      rw [distinct index (below.trans room) other otherBelow sameKey] at isRight
      exact isRight otherLeft
    intro first firstBelow second secondBelow firstRight secondRight
    rw [isGap first firstBelow firstRight, isGap second secondBelow secondRight]
  · intro atMostOne entry
    rw [inPlace.mem_left]
    have counted := inPlace.length_behind distinct room
    by_cases short : gap < leftCap
    · have only : ∀ index < leftCap, ¬ GoesLeft source leftCap index → index = gap :=
        fun index below isRight => atMostOne index below gap short isRight inPlace.isGap
      obtain ⟨last, isLast, atGap⟩ := inPlace.behind_only_gap distinct room short only
      have lastLeft := mem_leftFrom.mp (isLast ▸ List.mem_singleton_self last)
      have filled : left.slot gap = source.slot last := by
        rw [inPlace.leftSlots, if_pos rfl, atGap]
      constructor
      · intro isEntry
        obtain ⟨index, below, isEntry⟩ := isEntry
        by_cases isGap : index = gap
        · rw [isGap, filled] at isEntry
          exact ⟨last, lastLeft.1.2, lastLeft.2, isEntry⟩
        · rw [inPlace.slot_of_ne isGap] at isEntry
          have goesLeft : GoesLeft source leftCap index := by
            by_contra isRight
            exact isGap (only index below isRight)
          exact ⟨index, below.trans room, goesLeft, isEntry⟩
      · intro isEntry
        obtain ⟨index, bound, goesLeft, isEntry⟩ := isEntry
        by_cases below : index < leftCap
        · have differs : index ≠ gap := by
            intro isGap
            rw [isGap] at goesLeft
            exact inPlace.isGap goesLeft
          exact ⟨index, below, by rw [inPlace.slot_of_ne differs]; exact isEntry⟩
        · have inRest : index ∈ leftFrom source leftCap leftCap :=
            mem_leftFrom.mpr ⟨⟨not_lt.mp below, bound⟩, goesLeft⟩
          rw [isLast, List.mem_singleton] at inRest
          exact ⟨gap, short, by rw [filled, ← inRest]; exact isEntry⟩
    · -- all records that go left lie in front
      have isCap : gap = leftCap := by omega
      have noneBehind : leftFrom source leftCap (gap + 1) = [] := List.length_eq_zero_iff.mp (by omega)
      constructor
      · intro isEntry
        obtain ⟨index, below, isEntry⟩ := isEntry
        rw [inPlace.slot_of_ne (by omega)] at isEntry
        exact ⟨index, below.trans room, inPlace.full index (by omega), isEntry⟩
      · intro isEntry
        obtain ⟨index, bound, goesLeft, isEntry⟩ := isEntry
        have below : index < leftCap := by
          by_contra above
          by_cases isGap : index = gap
          · rw [isGap] at goesLeft
            exact inPlace.isGap goesLeft
          · have inRest : index ∈ leftFrom source leftCap (gap + 1) :=
              mem_leftFrom.mpr ⟨⟨by omega, bound⟩, goesLeft⟩
            rw [noneBehind] at inRest
            cases inRest
        exact ⟨index, below, by rw [inPlace.slot_of_ne (by omega)]; exact isEntry⟩

/-- The right node is right if and only if the fingerprints of its records were. -/
theorem right_iff (distinct : source.DistinctKeys) :
    (∀ entry, entry ∈ right.entries ↔ ∃ index < source.next, ¬ GoesLeft source leftCap index ∧
        entry = source.slot index) ↔
      ∀ index < source.next, ¬ GoesLeft source leftCap index →
        source.fingerprints index = fingerprint (source.pairs index).key.val := by
  constructor
  · intro agrees index bound isRight
    have onRight := (inPlace.rightEntries _).mpr ⟨index, bound, isRight, rfl⟩
    obtain ⟨other, otherBound, _, same⟩ := (agrees _).mp onRight
    have sameKey : (source.pairs index).key = (source.pairs other).key :=
      congrArg (fun entry : UInt8 × KV => entry.2.key) same
    rw [← distinct index bound other otherBound sameKey] at same
    exact (congrArg Prod.fst same).symm
  · intro marked entry
    rw [inPlace.rightEntries]
    apply exists_congr
    intro index
    apply and_congr_right
    intro bound
    apply and_congr_right
    intro isRight
    unfold LinkedNode.entryOf LinkedNode.slot
    rw [marked index bound isRight]

end SplitInPlace

omit [Digest] in
/-- What `out_of_place_split_node` puts left and right, by the slots of its source. -/
theorem splitByRank_slots {buffer outLeft outRight : LinkedNode} {outAnchor : Str}
    (copied : buffer.entries = source.entries)
    (byRank : SplitByRank buffer leftCap outLeft outRight outAnchor) :
    (∀ entry, entry ∈ outLeft.entries ↔ ∃ index < source.next, GoesLeft source leftCap index ∧
        entry = source.slot index) ∧
      ∀ entry, entry ∈ outRight.entries ↔ ∃ index < source.next, ¬ GoesLeft source leftCap index ∧
        entry = source.slot index := by
  have sameRank : ∀ key, rankOf buffer key = rankOf source key := by
    intro key
    unfold rankOf
    rw [← LinkedNode.entries_map_snd, copied, LinkedNode.entries_map_snd]
  have slots : ∀ (test : UInt8 × KV → Prop) (entry : UInt8 × KV), entry ∈ source.entries ∧ test entry ↔
      ∃ index < source.next, test (source.slot index) ∧ entry = source.slot index := by
    intro test entry
    rw [LinkedNode.mem_entries]
    constructor
    · intro held
      obtain ⟨⟨index, bound, isEntry⟩, passes⟩ := held
      rw [isEntry] at passes
      exact ⟨index, bound, passes, isEntry⟩
    · intro held
      obtain ⟨index, bound, passes, isEntry⟩ := held
      rw [← isEntry] at passes
      exact ⟨⟨index, bound, isEntry⟩, passes⟩
  constructor
  · intro entry
    rw [byRank.leftEntries, copied, List.mem_filter, decide_eq_true_iff, sameRank]
    exact slots (fun entry => rankOf source entry.2.key < leftCap) entry
  · intro entry
    rw [byRank.rightEntries, copied, List.mem_filter, decide_eq_true_iff, sameRank, ← not_lt]
    exact slots (fun entry => ¬ rankOf source entry.2.key < leftCap) entry

namespace ComputeNode

variable {node : ComputeNode} {thread : ThreadId} {target : NodeId} {key value : Bytes16} {done : Bool}

/-- The tuple that `out_of_place_split_node` returns, with what its pointers lead to. -/
def splitOutOfPlace (node : ComputeNode) (thread : ThreadId) (target : NodeId) (key value : Str) (leftCap : Nat)
    (done : Bool) : LinkedNode × LinkedNode × Str :=
  let (anchor, _, after) := node.outOfPlaceSplitNode thread target key value leftCap done
  (after.buffers thread 1, after.buffers thread 2, anchor)

/-- Without a request, and with the own key stored, the source alone is split. -/
theorem splitOutOfPlace_eq (noRequests : (node.contexts thread).requests = [])
    (stored : done = true ∨ ((node.buffers thread 1).find key.val).isSome = true)
    (few : (node.buffers thread 1).next ≤ LinkedNodeType.type16.capacity) :
    node.splitOutOfPlace thread target key.val value.val leftCap done =
      splitBuffer (bufferNode (node.buffers thread 1)) (node.buffers thread 1) (node.buffers thread 2) leftCap := by
  have kept : (if done then bufferNode (node.buffers thread 1)
      else ((bufferNode (node.buffers thread 1)).store bufferCapacity key.val value.val).2) =
        bufferNode (node.buffers thread 1) := by
    rcases stored with isDone | isStored
    · rw [if_pos isDone]
    · rw [← LinkedNode.find_of_entries (bufferNode_entries few)] at isStored
      split
      next => rfl
      next =>
        unfold LinkedNode.store
        rw [if_pos isStored]
        split <;> rfl
  have work : (node.splitWork thread target key.val value.val done).real = bufferNode (node.buffers thread 1) := by
    unfold splitWork
    rw [noRequests]
    exact kept
  unfold splitOutOfPlace outOfPlaceSplitNode
  simp [work, staged, setSlot, setRequests]

/-- The split in place agrees with the one out of place if and only if at most one of the first
`leftCap` records is to go right, and the records that go right have the hash bytes of their
keys. -/
theorem inplace_split_agrees_iff (noRequests : (node.contexts thread).requests = [])
    (stored : done = true ∨ ((node.buffers thread 1).find key.val).isSome = true)
    (distinct : (node.buffers thread 1).DistinctKeys)
    (few : (node.buffers thread 1).next ≤ LinkedNodeType.type16.capacity)
    (room : leftCap < (node.buffers thread 1).next) :
    SplitAlike (inplaceSplitNode (node.buffers thread 1) (node.buffers thread 2) leftCap)
        (node.splitOutOfPlace thread target key.val value.val leftCap done) ↔
      (∀ first < leftCap, ∀ second < leftCap, ¬ GoesLeft (node.buffers thread 1) leftCap first →
          ¬ GoesLeft (node.buffers thread 1) leftCap second → first = second) ∧
        ∀ index < (node.buffers thread 1).next, ¬ GoesLeft (node.buffers thread 1) leftCap index →
          (node.buffers thread 1).fingerprints index =
            fingerprint ((node.buffers thread 1).pairs index).key.val := by
  rw [splitOutOfPlace_eq noRequests stored few]
  generalize node.buffers thread 1 = source at *
  generalize node.buffers thread 2 = behind
  have copied := bufferNode_entries few
  have copiedDistinct : (bufferNode source).DistinctKeys := by
    rw [LinkedNode.distinctKeys_iff_records, ← LinkedNode.entries_map_snd, copied, LinkedNode.entries_map_snd,
      ← LinkedNode.distinctKeys_iff_records]
    exact distinct
  have byRank := split_by_rank (bufferNode source) source behind leftCap copiedDistinct room
  have slots := splitByRank_slots copied byRank
  obtain ⟨gap, inPlace⟩ := @inplaceSplitNode_spec _ source behind leftCap distinct few room
  rw [← inPlace.left_iff distinct room, ← inPlace.right_iff distinct]
  constructor
  · intro alike
    constructor
    · intro entry
      rw [alike.left entry]
      exact slots.1 entry
    · intro entry
      rw [alike.right entry]
      exact slots.2 entry
  · intro both
    constructor
    case anchor =>
      -- both anchors are the least of the same keys
      obtain ⟨index, bound, isRight, isAnchor⟩ := inPlace.anchorHeld
      obtain ⟨pair, isMember, isOther⟩ := byRank.anchorHeld
      have heldPairs : ∀ pair, pair ∈ (splitBuffer (bufferNode source) source behind leftCap).2.1.records ↔
          ∃ index < source.next, ¬ GoesLeft source leftCap index ∧ source.pairs index = pair := by
        intro pair
        rw [← LinkedNode.entries_map_snd, List.mem_map]
        constructor
        · intro held
          obtain ⟨entry, isEntry, isPair⟩ := held
          obtain ⟨index, bound, isRight, same⟩ := (slots.2 entry).mp isEntry
          rw [same] at isPair
          exact ⟨index, bound, isRight, isPair⟩
        · intro held
          obtain ⟨index, bound, isRight, same⟩ := held
          exact ⟨source.slot index, (slots.2 _).mpr ⟨index, bound, isRight, rfl⟩, same⟩
      apply le_antisymm
      · obtain ⟨other, otherBound, otherRight, same⟩ := (heldPairs pair).mp isMember
        rw [← isOther, ← same]
        exact inPlace.anchorLeast other otherBound otherRight
      · rw [← isAnchor]
        exact byRank.anchorLeast _ ((heldPairs _).mpr ⟨index, bound, isRight, rfl⟩)
    case left =>
      intro entry
      rw [both.1 entry]
      exact (slots.1 entry).symm
    case right =>
      intro entry
      rw [both.2 entry]
      exact (slots.2 entry).symm

end ComputeNode

end DiStore.Cluster

/-! ### Two splits -/

namespace DiStore.Cluster.ComputeNode

open DiStore.DataLayer DiStore.Memory

attribute [local instance] Digests.source

/-- A node with the keys of the given bytes. -/
def nodeOfBytes (bytes : List UInt8) : LinkedNode :=
  (LinkedNode.fresh .type16 .zeroed).appendAll (bytes.map fun byte => ⟨.fill byte, .fill byte⟩)

/-- A compute node with a fetched node in the second slot of its buffer. -/
def fetchedBytes (bytes : List UInt8) : ComputeNode :=
  initialized (.memoryNode 4096) 0 (fun _ => .zeroed) (fun _ _ => nodeOfBytes bytes) fun _ => .zeroed

/-- The first record is the largest one. -/
theorem rotated_splits_agree :
    SplitAlike (inplaceSplitNode (nodeOfBytes [3, 1, 2]) (nodeOfBytes [3, 1, 2]) 2)
      ((fetchedBytes [3, 1, 2]).splitOutOfPlace 0 0 (Bytes16.fill 1).val (Bytes16.fill 1).val 2 true) :=
  (@inplace_split_agrees_iff _ 2 (fetchedBytes [3, 1, 2]) 0 0 (.fill 1) (.fill 1) true rfl (Or.inl rfl)
    (by decide +kernel) (by decide) (by decide)).mpr (by decide +kernel)

/-- The two largest records come first: the left node keeps the second of them. -/
theorem swapped_halves_disagree :
    ¬ ∀ (node : ComputeNode) (key value : Bytes16) (leftCap : Nat),
      (node.contexts 0).requests = [] → ((node.buffers 0 1).find key.val).isSome = true →
      (node.buffers 0 1).DistinctKeys → (node.buffers 0 1).Fingerprinted → (node.buffers 0 1).next ≤ 16 →
      leftCap < (node.buffers 0 1).next →
      SplitAlike (inplaceSplitNode (node.buffers 0 1) (node.buffers 0 2) leftCap)
        (node.splitOutOfPlace 0 0 key.val value.val leftCap false) := by
  intro alike
  have agrees := alike (fetchedBytes [3, 4, 1, 2]) (.fill 1) (.fill 1) 2 rfl (by decide +kernel)
    (by decide +kernel) (by decide +kernel) (by decide +kernel) (by decide +kernel)
  have inPlace : (nodeOfBytes [3, 4, 1, 2]).slot 1 ∈
      (inplaceSplitNode (nodeOfBytes [3, 4, 1, 2]) (nodeOfBytes [3, 4, 1, 2]) 2).1.entries := by decide +kernel
  have outOfPlace : (nodeOfBytes [3, 4, 1, 2]).slot 1 ∉
      ((fetchedBytes [3, 4, 1, 2]).splitOutOfPlace 0 0 (Bytes16.fill 1).val (Bytes16.fill 1).val 2
        false).1.entries := by decide +kernel
  exact outOfPlace ((agrees.left _).mp inPlace)

end DiStore.Cluster.ComputeNode
