import DiStore.Cluster.LocalStage

/-!
Contract: the shape of the two local nodes after any calls.

Owns: the inversion of `quick_put_pick_node` and of a `quick_put` that stays
local, the invariant `LocalStage.Shape`, and its preservation by every call.

`Shape` says what both the map view (`Cluster.LocalMap`) and the flush
(`Cluster.Flush`) need: which keys can be in which node relative to the anchors.
It holds with repeated keys and with updates sent to the wrong node, so it says
nothing about which value a key has.
-/

set_option autoImplicit false

namespace DiStore.Cluster

open DiStore.DataLayer

namespace LocalStage

/-! ### Inversion of the pick -/

/-- The six ways `quick_put_pick_node` can go. -/
inductive Pick (stage : LocalStage) (key : Str) : LocalStage → Fin 2 → Prop where
  | first (noFirst : stage.anchors 0 = []) : Pick stage key (stage.setAnchor 0 key) 0
  | swap (hasFirst : stage.anchors 0 ≠ []) (below : key < stage.anchors 0)
      (noSecond : stage.anchors 1 = []) : Pick stage key (stage.swapped.setAnchor 0 key) 0
  | lower (hasFirst : stage.anchors 0 ≠ []) (below : key < stage.anchors 0)
      (hasSecond : stage.anchors 1 ≠ []) : Pick stage key (stage.setAnchor 0 key) 0
  | second (hasFirst : stage.anchors 0 ≠ []) (above : ¬ key < stage.anchors 0)
      (noSecond : stage.anchors 1 = []) : Pick stage key (stage.setAnchor 1 key) 1
  | upper (hasFirst : stage.anchors 0 ≠ []) (above : ¬ key < stage.anchors 0)
      (hasSecond : stage.anchors 1 ≠ []) (beyond : stage.anchors 1 < key) : Pick stage key stage 1
  | between (hasFirst : stage.anchors 0 ≠ []) (above : ¬ key < stage.anchors 0)
      (hasSecond : stage.anchors 1 ≠ []) (within : ¬ stage.anchors 1 < key) : Pick stage key stage 0

theorem pick_spec (stage : LocalStage) (key : Str) :
    Pick stage key (stage.quickPutPickNode key).1 (stage.quickPutPickNode key).2 := by
  unfold quickPutPickNode
  split
  next noFirst => exact .first noFirst
  next hasFirst =>
    split
    next below =>
      by_cases noSecond : stage.anchors 1 = []
      · simp only [if_pos noSecond]
        exact .swap hasFirst below noSecond
      · simp only [if_neg noSecond]
        exact .lower hasFirst below noSecond
    next above =>
      split
      next noSecond => exact .second hasFirst above noSecond
      next hasSecond =>
        split
        next beyond => exact .upper hasFirst above hasSecond beyond
        next within => exact .between hasFirst above hasSecond within

variable [Digest]

/-- A `quick_put` that stays local stored into the picked node, which had room. -/
theorem quickPut_eq_some {stage next : LocalStage} {key value : Str}
    (stayed : stage.quickPut key value = some next) :
    ∃ picked slot, Pick stage key picked slot ∧ (picked.nodes slot).next < 10 ∧
      next = picked.setNode slot ((picked.nodes slot).store 10 key value).2 := by
  refine ⟨_, _, pick_spec stage key, ?_⟩
  unfold quickPut at stayed
  simp only at stayed
  split at stayed
  next stored =>
    refine ⟨?_, (Option.some.inj stayed).symm⟩
    rw [LinkedNode.store_fst] at stored
    simpa using stored
  next => cases stayed

/-- A `quick_put` flushes exactly when the picked node is full. -/
theorem quickPut_eq_none_iff {stage : LocalStage} {key value : Str} :
    stage.quickPut key value = none ↔
      ¬ ((stage.quickPutPickNode key).1.nodes (stage.quickPutPickNode key).2).next < 10 := by
  unfold quickPut
  simp only [LinkedNode.store_fst]
  by_cases room : ((stage.quickPutPickNode key).1.nodes (stage.quickPutPickNode key).2).next < 10 <;>
    simp [room]

/-! ### The invariant -/

/-- Where keys can be, relative to the anchors. -/
structure Shape (stage : LocalStage) : Prop where
  marked : ∀ slot, (stage.nodes slot).Fingerprinted
  distinct : ∀ slot, (stage.nodes slot).DistinctKeys
  bounded : ∀ slot, (stage.nodes slot).next ≤ 10
  tag : ∀ slot, (stage.nodes slot).type = .type10
  unset : stage.anchors 0 = [] → stage.anchors 1 = []
  above : ∀ slot (key : Bytes16), (stage.nodes slot).Holds key → ¬ key.val < stage.anchors 0
  secondAbove : ∀ key : Bytes16, (stage.nodes 1).Holds key → ¬ key.val < stage.anchors 1
  ordered : stage.anchors 1 ≠ [] → ¬ stage.anchors 1 < stage.anchors 0
  /-- before the second anchor, at most the first anchor is stored -/
  single : stage.anchors 1 = [] → ∀ slot (key : Bytes16), (stage.nodes slot).Holds key →
    slot = 0 ∧ stage.anchors 0 = key.val
  held : ∀ slot (key : Bytes16), stage.anchors slot = key.val → (stage.nodes slot).Holds key
  /-- while both anchors are the same key, the first node holds nothing else -/
  twin : stage.anchors 0 = stage.anchors 1 → ∀ key : Bytes16, (stage.nodes 0).Holds key →
    stage.anchors 0 = key.val

variable {stage next : LocalStage} {key value : Bytes16}

theorem shape_initial (heap : Fin 2 → LinkedNode) : (initial heap).Shape where
  marked _ _ bound := absurd bound (Nat.not_lt_zero _)
  distinct _ _ bound := absurd bound (Nat.not_lt_zero _)
  bounded _ := Nat.zero_le _
  tag _ := rfl
  unset _ := rfl
  above _ _ holds := absurd holds (LinkedNode.not_holds_of_next_zero rfl)
  secondAbove _ holds := absurd holds (LinkedNode.not_holds_of_next_zero rfl)
  ordered present := absurd rfl present
  single _ _ _ holds := absurd holds (LinkedNode.not_holds_of_next_zero rfl)
  held _ key isKey := absurd isKey.symm key.ne_nil
  twin _ _ holds := absurd holds (LinkedNode.not_holds_of_next_zero rfl)

omit [Digest] in
theorem nil_lt_key (key : Bytes16) : ([] : Str) < key.val := by
  cases bytes : key.val with
  | nil => exact absurd bytes key.ne_nil
  | cons _ _ => exact List.nil_lt_cons _ _

omit [Digest] in
/-- Every key of the picked nodes is an old one, so their shape facts carry over. -/
private theorem pick_nodes {picked : LocalStage} {text : Str} {slot : Fin 2}
    (pick : Pick stage text picked slot) (place : Fin 2) :
    ∃ old, picked.nodes place = stage.nodes old := by
  cases pick with
  | swap _ _ _ => exact ⟨1 - place, rfl⟩
  | first _ | lower _ _ _ | second _ _ _ | upper _ _ _ _ | between _ _ _ _ => exact ⟨place, rfl⟩

/-- A `put` that stays local keeps the shape: the anchors move only to the new key
(or trade places with their nodes), and one node gains only the new key. -/
theorem shape_quickPut (shape : stage.Shape)
    (stayed : stage.quickPut key.val value.val = some next) : next.Shape := by
  obtain ⟨picked, slot, pick, room, rfl⟩ := quickPut_eq_some stayed
  -- a property of both old nodes holds of both picked ones
  have picks : ∀ property : LinkedNode → Prop, (∀ place, property (stage.nodes place)) →
      ∀ place, property (picked.nodes place) := by
    intro property all place
    obtain ⟨old, same⟩ := pick_nodes pick place
    exact same ▸ all old
  have pickedMarked := picks _ shape.marked
  have pickedBounded := picks (fun node => node.next ≤ 10) shape.bounded
  have pickedTag := picks (fun node => node.type = .type10) shape.tag
  have nodeEq : ∀ place, (picked.setNode slot ((picked.nodes slot).store 10 key.val value.val).2).nodes place =
      if place = slot then ((picked.nodes slot).store 10 key.val value.val).2 else picked.nodes place := by
    intro place
    simp [setNode, Function.update_apply]
  have anchors : (picked.setNode slot ((picked.nodes slot).store 10 key.val value.val).2).anchors =
      picked.anchors := rfl
  generalize picked.setNode slot ((picked.nodes slot).store 10 key.val value.val).2 = after at *
  have holds : ∀ place (other : Bytes16),
      (after.nodes place).Holds other ↔
        (picked.nodes place).Holds other ∨ (place = slot ∧ other = key) := by
    intro place other
    rw [nodeEq]
    by_cases here : place = slot
    · rw [if_pos here, LinkedNode.holds_store_iff (pickedMarked slot), here]
      simp [room]
    · simp [here]
  have keyAboveNil := nil_lt_key key
  have keyNotNil := key.ne_nil
  have ⟨_, _, _, _, unset, above, secondAbove, ordered, single, held, twin⟩ := shape
  constructor
  case marked =>
    intro place
    rw [nodeEq]
    split
    · exact (pickedMarked slot).store 10 key value
    · exact pickedMarked place
  case distinct =>
    intro place
    rw [nodeEq]
    split
    · exact (picks _ shape.distinct slot).store (pickedMarked slot) 10 key value
    · exact picks _ shape.distinct place
  case bounded =>
    intro place
    rw [nodeEq]
    split
    · exact LinkedNode.store_next_le (pickedBounded slot) _ _
    · exact pickedBounded place
  case tag =>
    intro place
    rw [nodeEq]
    split
    · rcases LinkedNode.store_cases (picked.nodes slot) 10 key.val value.val with
        ⟨_, eq⟩ | ⟨_, _, eq⟩ | ⟨_, _, eq⟩ <;> rw [eq] <;> exact pickedTag slot
    · exact pickedTag place
  -- The remaining fields only speak about keys and anchors: six picks each.
  case unset =>
    rw [anchors]
    clear picks pickedMarked pickedBounded pickedTag nodeEq shape
    cases pick <;> simp_all [setAnchor, swapped]
  case above =>
    intro place other inNode
    rw [holds] at inNode
    rw [anchors]
    clear picks pickedMarked pickedBounded pickedTag nodeEq shape
    cases pick <;> (try simp only [setAnchor, swapped] at *) <;> grind -ring
  case secondAbove =>
    intro other inNode
    rw [holds] at inNode
    rw [anchors]
    clear picks pickedMarked pickedBounded pickedTag nodeEq shape
    cases pick <;> (try simp only [setAnchor, swapped] at *) <;> grind -ring
  case ordered =>
    rw [anchors]
    clear picks pickedMarked pickedBounded pickedTag nodeEq shape
    cases pick <;> (try simp only [setAnchor, swapped] at *) <;> grind -ring
  case single =>
    intro noSecond place other inNode
    rw [holds] at inNode
    rw [anchors] at noSecond ⊢
    clear picks pickedMarked pickedBounded pickedTag nodeEq shape
    cases pick <;> (try simp only [setAnchor, swapped] at *) <;> grind -ring
  case held =>
    intro place other isAnchor
    rw [anchors] at isAnchor
    rw [holds]
    clear picks pickedMarked pickedBounded pickedTag nodeEq shape
    cases pick <;> (try simp only [setAnchor, swapped] at *) <;> grind -ring
  case twin =>
    intro same other inNode
    rw [anchors] at same ⊢
    rw [holds] at inNode
    clear picks pickedMarked pickedBounded pickedTag nodeEq shape
    cases pick <;> (try simp only [setAnchor, swapped] at *) <;> grind -ring

/-- `update` moves no key and no anchor. -/
theorem shape_update (shape : stage.Shape) (key text : Str) : (stage.update key text).2.Shape := by
  have nodeEq : ∀ place, (stage.update key text).2.nodes place =
      if place = stage.updateSlot key then ((stage.nodes (stage.updateSlot key)).update key text).2
      else stage.nodes place := by
    intro place
    simp [update, setNode, Function.update_apply]
  have anchors : (stage.update key text).2.anchors = stage.anchors := rfl
  generalize (stage.update key text).2 = after at *
  have holds : ∀ place (other : Bytes16),
      (after.nodes place).Holds other ↔ (stage.nodes place).Holds other := by
    intro place other
    rw [nodeEq]
    split
    next here => rw [here, LinkedNode.holds_update_iff]
    next => rfl
  have next : ∀ place, (after.nodes place).next = (stage.nodes place).next := by
    intro place
    rw [nodeEq]
    split
    next here => rw [here, LinkedNode.update_next]
    next => rfl
  constructor
  case marked =>
    intro place
    rw [nodeEq]
    split
    · exact (shape.marked _).update key text
    · exact shape.marked place
  case distinct =>
    intro place left leftBound right rightBound same
    rw [next] at leftBound rightBound
    have keys : ∀ slot, ((after.nodes place).pairs slot).key = ((stage.nodes place).pairs slot).key := by
      intro slot
      rw [nodeEq]
      split
      next here => rw [here, LinkedNode.update_pairs_key]
      next => rfl
    rw [keys, keys] at same
    exact shape.distinct place left leftBound right rightBound same
  case bounded =>
    intro place
    rw [next]
    exact shape.bounded place
  case tag =>
    intro place
    rw [nodeEq]
    split
    · rw [LinkedNode.update_type]
      exact shape.tag _
    · exact shape.tag place
  case unset => exact anchors ▸ shape.unset
  case above => simpa only [holds, anchors] using shape.above
  case secondAbove => simpa only [holds, anchors] using shape.secondAbove
  case ordered => exact anchors ▸ shape.ordered
  case single => simpa only [holds, anchors] using shape.single
  case held => simpa only [holds, anchors] using shape.held
  case twin => simpa only [holds, anchors] using shape.twin

theorem shape_call {call : LocalCall} {answer : Answer} (shape : stage.Shape)
    (ran : stage.call call = some (next, answer)) : next.Shape := by
  cases call with
  | put key value =>
      simp only [LocalStage.call, Option.map_eq_some_iff] at ran
      obtain ⟨after, stayed, eq⟩ := ran
      obtain ⟨rfl, rfl⟩ := Prod.mk.inj eq
      exact shape_quickPut shape stayed
  | update key value =>
      obtain ⟨rfl, rfl⟩ := Prod.mk.inj (Option.some.inj ran)
      exact shape_update shape key.val value.val
  | get key =>
      obtain ⟨rfl, rfl⟩ := Prod.mk.inj (Option.some.inj ran)
      exact shape

/-- Every stage a sequence of local calls reaches has the shape. -/
theorem shape_calls {calls : List LocalCall} {history : List (LocalCall × Answer)}
    (shape : stage.Shape) (ran : stage.calls calls = some (next, history)) : next.Shape := by
  induction calls generalizing stage history with
  | nil =>
      obtain ⟨rfl, rfl⟩ := Prod.mk.inj (Option.some.inj ran)
      exact shape
  | cons first rest inductionHypothesis =>
      simp only [calls, Option.bind_eq_bind, Option.bind_eq_some_iff, Prod.exists] at ran
      obtain ⟨middle, answer, stepped, last, answers, continued, eq⟩ := ran
      obtain ⟨rfl, _⟩ := Prod.mk.inj (Option.some.inj eq)
      exact inductionHypothesis (shape_call shape stepped) continued

/-! ### Full nodes -/

omit [Digest] in
theorem holds_of_next_pos {node : LinkedNode} {index : Nat} (bound : index < node.next) :
    node.Holds (node.pairs index).key := ⟨index, bound, rfl⟩

/-- The three ways to pick a full node: both anchors exist, and the nodes stay where
they are. -/
theorem Shape.full_pick {picked : LocalStage} {slot : Fin 2} (shape : stage.Shape)
    (pick : Pick stage key.val picked slot) (full : ¬ (picked.nodes slot).next < 10) :
    stage.anchors 1 ≠ [] ∧ picked.nodes = stage.nodes ∧ picked.anchors 1 = stage.anchors 1 ∧
      picked.anchors 0 = min key.val (stage.anchors 0) ∧
      (slot = 0 ∧ ¬ stage.anchors 1 < key.val ∧ stage.anchors 0 ≠ stage.anchors 1 ∨
        slot = 1 ∧ stage.anchors 1 < key.val ∧ ¬ key.val < stage.anchors 0) := by
  have firstHeld : ∀ place, ¬ (stage.nodes place).next < 10 →
      (stage.nodes place).Holds ((stage.nodes place).pairs 0).key := fun place full =>
    holds_of_next_pos (by omega)
  -- a node cannot be full while both of its first two records have one key
  have notTwin : ¬ (stage.nodes 0).next < 10 → stage.anchors 0 ≠ stage.anchors 1 := by
    intro isFull same
    have first := shape.twin same _ (holds_of_next_pos (show 0 < (stage.nodes 0).next by omega))
    have second := shape.twin same _ (holds_of_next_pos (show 1 < (stage.nodes 0).next by omega))
    have equal := shape.distinct 0 0 (by omega) 1 (by omega) (Subtype.ext (first.symm.trans second))
    cases equal
  cases pick with
  | first noFirst =>
    have single := shape.single (shape.unset noFirst) 0 _ (firstHeld 0 full)
    exact absurd (single.2.symm.trans noFirst) (Bytes16.ne_nil _)
  | swap _ _ noSecond =>
    have single := shape.single noSecond 1 _ (firstHeld 1 full)
    exact absurd single.1 (by decide)
  | second _ _ noSecond =>
    have single := shape.single noSecond 1 _ (firstHeld 1 full)
    exact absurd single.1 (by decide)
  | lower _ below hasSecond =>
    have ordered := not_lt.mp (shape.ordered hasSecond)
    exact ⟨hasSecond, rfl, rfl, (min_eq_left below.le).symm,
      .inl ⟨rfl, not_lt.mpr (below.le.trans ordered), notTwin full⟩⟩
  | between _ above hasSecond within =>
    exact ⟨hasSecond, rfl, rfl, (min_eq_right (not_lt.mp above)).symm,
      .inl ⟨rfl, within, notTwin full⟩⟩
  | upper _ above hasSecond beyond =>
    exact ⟨hasSecond, rfl, rfl, (min_eq_right (not_lt.mp above)).symm, .inr ⟨rfl, beyond, above⟩⟩

end LocalStage

end DiStore.Cluster
