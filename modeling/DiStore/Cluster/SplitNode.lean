import DiStore.DataLayer.Entries
import DiStore.Library.Selection

/-!
Contract: how a node's type is chosen after it grew, and how a full node is split.

Owns: `morph_node`, the stack node of `out_of_place_split_node`,
`construct_reorder_map`, the distribution loop, and the partition by rank that a
split computes.

Does not own: the requests served before a split (`Cluster.Handover`), and where the
two halves are written.
-/

set_option autoImplicit false

namespace DiStore.Cluster

open DiStore.DataLayer DiStore.Library

/-- `morph_node`: the source counts the fingerprint bytes that are not zero. -/
def morphNode (buffer : LinkedNode) : LinkedNodeType :=
  let count := (List.range 16).countP fun index => buffer.fingerprints index != 0
  if count ≤ 10 then .type10
  else if count ≤ 12 then .type12
  else if count ≤ 14 then .type14
  else if count ≤ 16 then .type16
  else .notSet

/-- Pairs of `BufferNode`. -/
def bufferCapacity : Nat := 21

/-- `BufferNode tmp_node` after its two `memcpy`. Its constructor clears the other
fingerprints and leaves the other pairs to whatever the stack holds. -/
def bufferNode (source : LinkedNode) : LinkedNode :=
  { LinkedNode.fresh .notSet .zeroed with
    next := source.next
    fingerprints := fun index => if index < 16 then source.fingerprints index else 0
    pairs := fun index => if index < 16 then source.pairs index else default }

/-- `construct_reorder_map`: the order of the picks and the marks after
`left_cap + 1` of them. -/
def constructReorderMap (source : LinkedNode) (leftCap : Nat) : (Nat → Nat) × (Nat → Bool) :=
  let selection := select (fun index => (source.pairs index).key.val) source.next (leftCap + 1)
  (selection.order, selection.picked)

/-- One record moved to the end of a half. -/
def copyRecord (target : LinkedNode) (finger : UInt8) (pair : KV) : LinkedNode :=
  { target with
    fingerprints := Function.update target.fingerprints target.next finger
    pairs := Function.update target.pairs target.next pair
    next := target.next + 1 }

/-- The loop that moves every record to one half. -/
def distribute (buffer : LinkedNode) (picked : Nat → Bool) (places : List Nat)
    (halves : LinkedNode × LinkedNode) : LinkedNode × LinkedNode :=
  places.foldl
    (fun halves index =>
      if picked index then
        (copyRecord halves.1 (buffer.fingerprints index) (buffer.pairs index), halves.2)
      else (halves.1, copyRecord halves.2 (buffer.fingerprints index) (buffer.pairs index)))
    halves

/-- `out_of_place_split_node` after the requests are served: both halves and the
anchor of the right one. -/
def splitBuffer (buffer left right : LinkedNode) (leftCap : Nat) : LinkedNode × LinkedNode × Str :=
  let (order, picked) := constructReorderMap buffer leftCap
  let anchor := (buffer.pairs (order leftCap)).key.val
  let picked := Function.update picked (order leftCap) false
  let halves := distribute buffer picked (List.range buffer.next)
    ({ left with next := 0 }, { right with next := 0 })
  (halves.1, halves.2, anchor)

/-! ### The chosen type -/

theorem morphNode_isData (buffer : LinkedNode) : (morphNode buffer).IsData := by
  unfold morphNode
  have bound := List.countP_le_length (p := fun index => buffer.fingerprints index != 0)
    (l := List.range 16)
  rw [List.length_range] at bound
  simp only
  split
  next => trivial
  next =>
    split
    next => trivial
    next =>
      split
      next => trivial
      next => trivial

theorem morphNode_congr {left right : LinkedNode} (same : left.fingerprints = right.fingerprints) :
    morphNode left = morphNode right := by
  unfold morphNode
  rw [same]

/-- The fingerprints of appended records replace whatever their slots held. -/
theorem countP_appendAll [Digest] (added : List KV) (node : LinkedNode)
    (room : node.next + added.length ≤ 16) :
    (List.range 16).countP (fun index => (node.appendAll added).fingerprints index != 0) +
        (List.range' node.next added.length).countP (fun index => node.fingerprints index != 0) =
      (List.range 16).countP (fun index => node.fingerprints index != 0) +
        (added.map KV.key).countP (fun key => fingerprint key.val != 0) := by
  induction added generalizing node with
  | nil => rfl
  | cons pair added ih =>
      rw [List.length_cons] at room
      have later := ih (node.append pair.key.val pair.value.val) (by
        rw [LinkedNode.append_next]
        omega)
      have first := countP_update (List.range 16) List.nodup_range node.fingerprints
        (fingerprint pair.key.val) (fun finger => finger != 0)
        (show node.next ∈ List.range 16 from List.mem_range.mpr (by omega))
      have others : (List.range' (node.next + 1) added.length).countP
          (fun index => (node.append pair.key.val pair.value.val).fingerprints index != 0) =
            (List.range' (node.next + 1) added.length).countP
              (fun index => node.fingerprints index != 0) := by
        apply List.countP_congr
        intro index isMember
        have above := (List.mem_range'_1.mp isMember).1
        rw [LinkedNode.append_fingerprints_of_ne _ _ (by omega)]
      rw [LinkedNode.append_next, others] at later
      change (List.range 16).countP (fun index =>
        ((node.append pair.key.val pair.value.val).appendAll added).fingerprints index != 0) + _ = _
      rw [List.length_cons, List.range'_succ, List.countP_cons, List.map_cons, List.countP_cons]
      change (List.range 16).countP
        (fun index => (node.append pair.key.val pair.value.val).fingerprints index != 0) + _ = _ at first
      omega

/-- The chosen type does not depend on the order of the records added. -/
theorem morphNode_appendAll_perm [Digest] {left right : List KV} (node : LinkedNode)
    (perm : (left.map KV.key).Perm (right.map KV.key)) (room : node.next + left.length ≤ 16) :
    morphNode (node.appendAll left) = morphNode (node.appendAll right) := by
  have length : left.length = right.length := by
    rw [← @List.length_map _ _ left KV.key, ← @List.length_map _ _ right KV.key, perm.length_eq]
  have first := countP_appendAll left node room
  have second := countP_appendAll right node (length ▸ room)
  rw [perm.countP_eq, length] at first
  have same : (List.range 16).countP (fun index => (node.appendAll left).fingerprints index != 0) =
      (List.range 16).countP (fun index => (node.appendAll right).fingerprints index != 0) := by
    omega
  unfold morphNode
  rw [same]

/-! ### The stack node -/

theorem bufferNode_entries {source : LinkedNode} (bounded : source.next ≤ 16) :
    (bufferNode source).entries = source.entries := by
  have next : (bufferNode source).next = source.next := rfl
  apply LinkedNode.entries_congr next
  · intro index bound
    exact if_pos (by omega)
  · intro index bound
    exact if_pos (by omega)

/-! ### The distribution -/

theorem entries_copyRecord (target : LinkedNode) (finger : UInt8) (pair : KV) :
    (copyRecord target finger pair).entries = target.entries ++ [(finger, pair)] := by
  have next : (copyRecord target finger pair).next = target.next + 1 := rfl
  rw [LinkedNode.entries, next, List.range_succ, List.map_append, List.map_singleton]
  apply congrArg₂
  · apply List.map_congr_left
    intro index isMember
    have below := List.mem_range.mp isMember
    have differs : index ≠ target.next := by omega
    simp [copyRecord, differs]
  · simp [copyRecord]

/-- The fields of a half that the loop leaves alone. -/
structure SameHeader (left right : LinkedNode) : Prop where
  llink : left.llink = right.llink
  rlink : left.rlink = right.rlink
  crc : left.crc = right.crc
  type : left.type = right.type

theorem distribute_spec (buffer : LinkedNode) (picked : Nat → Bool) (places : List Nat)
    (halves : LinkedNode × LinkedNode) :
    (distribute buffer picked places halves).1.entries =
        halves.1.entries ++
          (places.filter picked).map (fun index => (buffer.fingerprints index, buffer.pairs index)) ∧
      (distribute buffer picked places halves).2.entries =
        halves.2.entries ++
          (places.filter fun index => !picked index).map
            (fun index => (buffer.fingerprints index, buffer.pairs index)) ∧
      SameHeader (distribute buffer picked places halves).1 halves.1 ∧
      SameHeader (distribute buffer picked places halves).2 halves.2 := by
  induction places generalizing halves with
  | nil =>
      refine ⟨?_, ?_, ⟨rfl, rfl, rfl, rfl⟩, ⟨rfl, rfl, rfl, rfl⟩⟩
      · simp [distribute]
      · simp [distribute]
  | cons first places ih =>
      cases isPicked : picked first with
      | true =>
          have step : distribute buffer picked (first :: places) halves =
              distribute buffer picked places
                (copyRecord halves.1 (buffer.fingerprints first) (buffer.pairs first), halves.2) := by
            simp [distribute, isPicked]
          obtain ⟨left, right, leftHeader, rightHeader⟩ := ih
            (copyRecord halves.1 (buffer.fingerprints first) (buffer.pairs first), halves.2)
          rw [step]
          refine ⟨?_, ?_, ⟨leftHeader.llink, leftHeader.rlink, leftHeader.crc, leftHeader.type⟩,
            rightHeader⟩
          · rw [left, entries_copyRecord, List.filter_cons_of_pos isPicked, List.map_cons,
              List.append_assoc]
            rfl
          · rw [right, List.filter_cons_of_neg (by simp [isPicked])]
      | false =>
          have step : distribute buffer picked (first :: places) halves =
              distribute buffer picked places
                (halves.1, copyRecord halves.2 (buffer.fingerprints first) (buffer.pairs first)) := by
            simp [distribute, isPicked]
          obtain ⟨left, right, leftHeader, rightHeader⟩ := ih
            (halves.1, copyRecord halves.2 (buffer.fingerprints first) (buffer.pairs first))
          rw [step]
          refine ⟨?_, ?_, leftHeader,
            ⟨rightHeader.llink, rightHeader.rlink, rightHeader.crc, rightHeader.type⟩⟩
          · rw [left, List.filter_cons_of_neg (by simp [isPicked])]
          · rw [right, entries_copyRecord, List.filter_cons_of_pos (by simp [isPicked]), List.map_cons,
              List.append_assoc]
            rfl

/-- How many records come before the one in a slot when they are sorted by key; of equal keys
the first slot is the first. -/
def rankAt (buffer : LinkedNode) (index : Nat) : Nat :=
  rankBefore (fun slot => (buffer.pairs slot).key.val) buffer.next index

/-- What a split leaves in its two halves. -/
structure Halved (buffer : LinkedNode) (leftCap : Nat) (picked : Nat → Bool)
    (left right : LinkedNode) (anchor : Str) : Prop where
  least : Least (fun index => (buffer.pairs index).key.val) buffer.next leftCap picked
  ranked : ∀ index < buffer.next, picked index = true ↔ rankAt buffer index < leftCap
  leftEntries : left.entries = ((List.range buffer.next).filter picked).map
    fun index => (buffer.fingerprints index, buffer.pairs index)
  rightEntries : right.entries = ((List.range buffer.next).filter fun index => !picked index).map
    fun index => (buffer.fingerprints index, buffer.pairs index)
  /-- the anchor is the key of a right record, and no right record is below it -/
  anchorHeld : ∃ index < buffer.next, picked index = false ∧ (buffer.pairs index).key.val = anchor
  anchorLeast : ∀ index < buffer.next, picked index = false → anchor ≤ (buffer.pairs index).key.val

/-- The split of a node with more records than the left half takes. -/
theorem splitBuffer_spec (buffer left right : LinkedNode) {leftCap : Nat} (room : leftCap < buffer.next) :
    ∃ picked, Halved buffer leftCap picked (splitBuffer buffer left right leftCap).1
        (splitBuffer buffer left right leftCap).2.1 (splitBuffer buffer left right leftCap).2.2 ∧
      SameHeader (splitBuffer buffer left right leftCap).1 left ∧
      SameHeader (splitBuffer buffer left right leftCap).2.1 right := by
  obtain ⟨bound, free, below, marks⟩ :=
    select_last (fun index => (buffer.pairs index).key.val) room
  have least := select_least (fun index => (buffer.pairs index).key.val) room.le
  obtain ⟨leftEntries, rightEntries, leftHeader, rightHeader⟩ := distribute_spec buffer
    (select (fun index => (buffer.pairs index).key.val) buffer.next leftCap).picked
    (List.range buffer.next) ({ left with next := 0 }, { right with next := 0 })
  have unfolded : splitBuffer buffer left right leftCap =
      ((distribute buffer (select (fun index => (buffer.pairs index).key.val) buffer.next leftCap).picked
          (List.range buffer.next) ({ left with next := 0 }, { right with next := 0 })).1,
        (distribute buffer (select (fun index => (buffer.pairs index).key.val) buffer.next leftCap).picked
          (List.range buffer.next) ({ left with next := 0 }, { right with next := 0 })).2,
        (buffer.pairs ((select (fun index => (buffer.pairs index).key.val) buffer.next
          (leftCap + 1)).order leftCap)).key.val) := by
    rw [← marks]
    rfl
  rw [unfolded]
  have ranked := fun index (inside : index < buffer.next) =>
    select_picked_iff (fun slot => (buffer.pairs slot).key.val) room.le inside
  refine ⟨_, ⟨least, ranked, leftEntries, rightEntries, ⟨_, bound, free, rfl⟩, below⟩,
    ⟨leftHeader.llink, leftHeader.rlink, leftHeader.crc, leftHeader.type⟩,
    ⟨rightHeader.llink, rightHeader.rlink, rightHeader.crc, rightHeader.type⟩⟩

namespace Halved

variable {buffer left right : LinkedNode} {leftCap : Nat} {picked : Nat → Bool} {anchor : Str}

theorem left_next (halved : Halved buffer leftCap picked left right anchor) : left.next = leftCap := by
  rw [← LinkedNode.length_entries, halved.leftEntries, List.length_map, ← List.countP_eq_length_filter]
  exact halved.least.count

theorem right_next (halved : Halved buffer leftCap picked left right anchor) :
    right.next = buffer.next - leftCap := by
  have all := List.length_eq_countP_add_countP picked (l := List.range buffer.next)
  have isLeft := halved.least.count
  have isRight : right.next = (List.range buffer.next).countP fun index => !picked index := by
    rw [← LinkedNode.length_entries, halved.rightEntries, List.length_map,
      ← List.countP_eq_length_filter]
  rw [List.length_range] at all
  simp only [Bool.not_eq_true, Bool.decide_eq_false] at all
  omega

/-- No record is lost or duplicated, and each fingerprint stays with its pair. -/
theorem entries_perm (halved : Halved buffer leftCap picked left right anchor) :
    (left.entries ++ right.entries).Perm buffer.entries := by
  rw [halved.leftEntries, halved.rightEntries, ← List.map_append, LinkedNode.entries]
  apply List.Perm.map
  exact List.filter_append_perm picked (List.range buffer.next)

theorem records_perm (halved : Halved buffer leftCap picked left right anchor) :
    (left.records ++ right.records).Perm buffer.records := by
  rw [← LinkedNode.entries_map_snd, ← LinkedNode.entries_map_snd, ← LinkedNode.entries_map_snd,
    ← List.map_append]
  exact halved.entries_perm.map Prod.snd

end Halved

/-! ### The slots of a half -/

/-- The slots not marked for the left half, counted by rank. -/
theorem countP_unmarked {buffer : LinkedNode} {picked : Nat → Bool} {leftCap index : Nat}
    (ranked : ∀ slot < buffer.next, picked slot = true ↔ rankAt buffer slot < leftCap)
    (bound : index < buffer.next) :
    (List.range index).countP (fun slot => !picked slot) =
      (List.range index).countP fun slot => leftCap ≤ rankAt buffer slot := by
  apply List.countP_congr
  intro slot isBefore
  have marked := ranked slot ((List.mem_range.mp isBefore).trans bound)
  rw [decide_eq_true_iff, ← not_lt, ← marked, Bool.not_eq_true', Bool.not_eq_true]

section Slots

variable [Digest] {buffer half : LinkedNode} {marked : Nat → Bool} {key : Bytes16} {room : Nat}

/-- A half matches a key in its first `room` slots exactly if the buffer does in a slot with
fewer than `room` slots of that half before it. -/
theorem half_matches_iff (entries : half.entries = ((List.range buffer.next).filter marked).map
      fun index => (buffer.fingerprints index, buffer.pairs index)) :
    (∃ place < half.next, half.matchesAt key.val place = true ∧ place < room) ↔
      ∃ index < buffer.next, marked index = true ∧ buffer.matchesAt key.val index = true ∧
        (List.range index).countP marked < room := by
  have length : half.next = ((List.range buffer.next).filter marked).length := by
    rw [← LinkedNode.length_entries, entries, List.length_map]
  have sameSlot : ∀ place index, ((List.range buffer.next).filter marked)[place]? = some index →
      half.matchesAt key.val place = buffer.matchesAt key.val index := by
    intro place index isPlace
    have inside : place < half.next := by
      rw [length]
      exact (List.getElem?_eq_some_iff.mp isPlace).1
    have isEntry : half.entries[place]? = some (half.fingerprints place, half.pairs place) := by
      rw [LinkedNode.entries, List.getElem?_map, List.getElem?_range inside]
      rfl
    rw [entries, List.getElem?_map, isPlace, Option.map_some, Option.some.injEq, Prod.mk.injEq] at isEntry
    rw [LinkedNode.matchesAt, LinkedNode.matchesAt, isEntry.1, isEntry.2]
  constructor
  · rintro ⟨place, inside, isMatch, within⟩
    have isPlace := List.getElem?_eq_getElem (length ▸ inside)
    rcases (getElem?_filter_range marked buffer.next place _).mp isPlace with ⟨bound, isMarked, isCount⟩
    exact ⟨_, bound, isMarked, (sameSlot place _ isPlace).symm.trans isMatch, isCount.trans_lt within⟩
  · rintro ⟨index, bound, isMarked, isMatch, within⟩
    have isPlace := (getElem?_filter_range marked buffer.next _ index).mpr ⟨bound, isMarked, rfl⟩
    refine ⟨_, ?_, (sameSlot _ index isPlace).trans isMatch, within⟩
    rw [length]
    exact (List.getElem?_eq_some_iff.mp isPlace).1

end Slots

/-! ### A split by rank -/

/-- How many records of a node have a smaller key. -/
def rankOf (node : LinkedNode) (key : Bytes16) : Nat :=
  node.records.countP fun pair => pair.key.val < key.val

/-- The records of the least keys on the left, all others on the right. -/
structure SplitByRank (buffer : LinkedNode) (leftCap : Nat) (left right : LinkedNode) (anchor : Str) :
    Prop where
  leftEntries : left.entries = buffer.entries.filter fun entry => rankOf buffer entry.2.key < leftCap
  rightEntries : right.entries = buffer.entries.filter fun entry => leftCap ≤ rankOf buffer entry.2.key
  leftNext : left.next = leftCap
  total : left.next + right.next = buffer.next
  /-- nothing is lost or duplicated, and each fingerprint stays with its pair -/
  entries : (left.entries ++ right.entries).Perm buffer.entries
  separated : ∀ lower ∈ left.records, ∀ upper ∈ right.records, lower.key.val < upper.key.val
  anchorHeld : ∃ pair ∈ right.records, pair.key.val = anchor
  anchorLeast : ∀ pair ∈ right.records, anchor ≤ pair.key.val

namespace Halved

variable {buffer left right : LinkedNode} {leftCap : Nat} {picked : Nat → Bool} {anchor : Str}

/-- The marks are the ranks. -/
theorem picked_iff_rank (halved : Halved buffer leftCap picked left right anchor)
    (distinct : buffer.DistinctKeys) {index : Nat} (bound : index < buffer.next) :
    picked index = true ↔ rankOf buffer (buffer.pairs index).key < leftCap := by
  have distinctKeys : ∀ first < buffer.next, ∀ second < buffer.next,
      (buffer.pairs first).key.val = (buffer.pairs second).key.val → first = second := by
    intro first firstBound second secondBound same
    exact distinct first firstBound second secondBound (Subtype.ext same)
  rw [halved.least.picked_iff distinctKeys bound]
  unfold rankOf LinkedNode.records
  rw [List.countP_map]
  rfl

theorem mem_left (halved : Halved buffer leftCap picked left right anchor) {pair : KV} :
    pair ∈ left.records ↔ ∃ index < buffer.next, picked index = true ∧ buffer.pairs index = pair := by
  rw [← LinkedNode.entries_map_snd, halved.leftEntries, List.map_map, List.mem_map]
  constructor
  · rintro ⟨index, isMember, isPair⟩
    obtain ⟨inRange, isPicked⟩ := List.mem_filter.mp isMember
    exact ⟨index, List.mem_range.mp inRange, isPicked, isPair⟩
  · rintro ⟨index, bound, isPicked, isPair⟩
    exact ⟨index, List.mem_filter.mpr ⟨List.mem_range.mpr bound, isPicked⟩, isPair⟩

theorem mem_right (halved : Halved buffer leftCap picked left right anchor) {pair : KV} :
    pair ∈ right.records ↔ ∃ index < buffer.next, picked index = false ∧ buffer.pairs index = pair := by
  rw [← LinkedNode.entries_map_snd, halved.rightEntries, List.map_map, List.mem_map]
  constructor
  · rintro ⟨index, isMember, isPair⟩
    obtain ⟨inRange, notPicked⟩ := List.mem_filter.mp isMember
    exact ⟨index, List.mem_range.mp inRange, by simpa using notPicked, isPair⟩
  · rintro ⟨index, bound, notPicked, isPair⟩
    exact ⟨index, List.mem_filter.mpr ⟨List.mem_range.mpr bound, by simp [notPicked]⟩, isPair⟩

/-- The anchor is the key of rank `left_cap`. -/
theorem le_anchor_iff (halved : Halved buffer leftCap picked left right anchor) (bound : Str) :
    bound ≤ anchor ↔ (buffer.records.countP fun pair => pair.key.val < bound) ≤ leftCap := by
  obtain ⟨held, heldBound, notPicked, isAnchor⟩ := halved.anchorHeld
  have total : buffer.records.countP (fun pair => pair.key.val < bound) =
      left.records.countP (fun pair => pair.key.val < bound) +
        right.records.countP (fun pair => pair.key.val < bound) := by
    rw [← halved.records_perm.countP_eq, List.countP_append]
  have onLeft : left.records.length = leftCap := by
    rw [LinkedNode.length_records]
    exact halved.left_next
  rw [total]
  constructor
  · intro below
    have noneRight : right.records.countP (fun pair => pair.key.val < bound) = 0 := by
      rw [List.countP_eq_zero]
      intro pair inRight isBelow
      obtain ⟨index, indexBound, isFree, isPair⟩ := halved.mem_right.mp inRight
      have above := halved.anchorLeast index indexBound isFree
      rw [isPair] at above
      exact absurd (of_decide_eq_true isBelow) (not_lt.mpr (below.trans above))
    rw [noneRight, Nat.add_zero, ← onLeft]
    exact List.countP_le_length
  · intro few
    by_contra above
    have anchorBelow : anchor < bound := not_le.mp above
    have allLeft : left.records.countP (fun pair => pair.key.val < bound) = leftCap := by
      rw [← onLeft, List.countP_eq_length]
      intro pair inLeft
      obtain ⟨index, _, isPicked, isPair⟩ := halved.mem_left.mp inLeft
      have least := halved.least.least index isPicked held heldBound notPicked
      simp only [isPair, isAnchor] at least
      exact decide_eq_true (least.trans_lt anchorBelow)
    have someRight : 0 < right.records.countP fun pair => pair.key.val < bound := by
      rw [List.countP_pos_iff]
      refine ⟨buffer.pairs held, halved.mem_right.mpr ⟨held, heldBound, notPicked, rfl⟩, ?_⟩
      rw [isAnchor]
      exact decide_eq_true anchorBelow
    omega

theorem splitByRank (halved : Halved buffer leftCap picked left right anchor)
    (distinct : buffer.DistinctKeys) (room : leftCap < buffer.next) :
    SplitByRank buffer leftCap left right anchor where
  leftEntries := by
    rw [halved.leftEntries, LinkedNode.entries, List.filter_map]
    apply congrArg
    apply List.filter_congr
    intro index inRange
    rw [Bool.eq_iff_iff, halved.picked_iff_rank distinct (List.mem_range.mp inRange)]
    exact decide_eq_true_iff.symm
  rightEntries := by
    rw [halved.rightEntries, LinkedNode.entries, List.filter_map]
    apply congrArg
    apply List.filter_congr
    intro index inRange
    rw [Bool.eq_iff_iff, Bool.not_eq_true', ← Bool.not_eq_true,
      halved.picked_iff_rank distinct (List.mem_range.mp inRange), not_lt]
    exact decide_eq_true_iff.symm
  leftNext := halved.left_next
  total := by
    rw [halved.left_next, halved.right_next]
    omega
  entries := halved.entries_perm
  separated := by
    intro lower inLeft upper inRight
    obtain ⟨first, firstBound, isPicked, rfl⟩ := halved.mem_left.mp inLeft
    obtain ⟨second, secondBound, notPicked, rfl⟩ := halved.mem_right.mp inRight
    have below := halved.least.least first isPicked second secondBound notPicked
    have differs : (buffer.pairs first).key.val ≠ (buffer.pairs second).key.val := by
      intro same
      have sameIndex := distinct first firstBound second secondBound (Subtype.ext same)
      rw [sameIndex, notPicked] at isPicked
      cases isPicked
    exact lt_of_le_of_ne below differs
  anchorHeld := by
    obtain ⟨index, bound, notPicked, isAnchor⟩ := halved.anchorHeld
    exact ⟨buffer.pairs index, halved.mem_right.mpr ⟨index, bound, notPicked, rfl⟩, isAnchor⟩
  anchorLeast := by
    intro pair inRight
    obtain ⟨index, bound, notPicked, rfl⟩ := halved.mem_right.mp inRight
    exact halved.anchorLeast index bound notPicked

end Halved

/-- `construct_reorder_map` and the loop that distributes the records split a node by
rank. -/
theorem split_by_rank (buffer left right : LinkedNode) (leftCap : Nat) (distinct : buffer.DistinctKeys)
    (room : leftCap < buffer.next) :
    SplitByRank buffer leftCap (splitBuffer buffer left right leftCap).1
      (splitBuffer buffer left right leftCap).2.1 (splitBuffer buffer left right leftCap).2.2 := by
  obtain ⟨picked, halved, _, _⟩ := splitBuffer_spec buffer left right room
  exact halved.splitByRank distinct room

/-- Seventeen records whose keys descend. -/
def descending : LinkedNode :=
  { LinkedNode.zeroed with
    next := 17
    pairs := fun index => ⟨.fill (UInt8.ofNat (100 - index)), .fill (UInt8.ofNat index)⟩ }

theorem descending_splitByRank :
    SplitByRank descending 9 (splitBuffer descending .zeroed .zeroed 9).1
      (splitBuffer descending .zeroed .zeroed 9).2.1 (splitBuffer descending .zeroed .zeroed 9).2.2 :=
  split_by_rank descending .zeroed .zeroed 9 (by decide +kernel) (by decide)

end DiStore.Cluster
