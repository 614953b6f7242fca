import DiStore.DataLayer.NodeFacts

/-!
Contract: a node of fixed size as a bounded map.

Owns: the calls of a node and their answers, what a history of answered calls promises
for each key, and the invariant that ties the arrays of the node to that promise.

Does not own: the `store` from byte pointers, which looks for no key, and keys that do
not fill their array (`DataLayer.ShortKeys`).
-/

set_option autoImplicit false

namespace DiStore.DataLayer

/-- A call on a node, with a key and a value that fill their arrays. -/
inductive NodeCall where
  | store (key value : Bytes16)
  | update (key value : Bytes16)
  | find (key : Bytes16)
deriving DecidableEq

inductive NodeAnswer where
  | done (result : Bool)
  | found (value : Option Bytes16)
deriving DecidableEq

/-- Calls with their answers, oldest first. -/
abbrev NodeHistory := List (NodeCall × NodeAnswer)

/-! ### What a history promises -/

namespace NodeHistory

/-- Value of the first `store` of the key that returned true. -/
def firstStored (history : NodeHistory) (key : Bytes16) : Option Bytes16 :=
  history.findSome? fun event =>
    match event with
    | (.store target value, .done true) => if target = key then some value else none
    | _ => none

/-- Value of the latest `update` of the key that returned true. -/
def lastUpdated (history : NodeHistory) (key : Bytes16) : Option Bytes16 :=
  history.reverse.findSome? fun event =>
    match event with
    | (.update target value, .done true) => if target = key then some value else none
    | _ => none

/-- The value the key should have. -/
def mapped (history : NodeHistory) (key : Bytes16) : Option Bytes16 :=
  (history.lastUpdated key).or (history.firstStored key)

/-- Some `store` of the key returned true. -/
def Stored (history : NodeHistory) (key : Bytes16) : Prop := (history.firstStored key).isSome = true

variable {before : NodeHistory} {key value other : Bytes16} {result : Bool} {found : Option Bytes16}

theorem firstStored_append (event : NodeCall × NodeAnswer) :
    firstStored (before ++ [event]) other = (before.firstStored other).or (firstStored [event] other) :=
  List.findSome?_append

theorem lastUpdated_append (event : NodeCall × NodeAnswer) :
    lastUpdated (before ++ [event]) other = (lastUpdated [event] other).or (before.lastUpdated other) := by
  unfold lastUpdated
  rw [List.reverse_append]
  exact List.findSome?_append

/-- A `store` that returned true binds a key that had no value. -/
theorem mapped_store : mapped (before ++ [(.store key value, .done result)]) other =
    (before.mapped other).or (if result = true ∧ key = other then some value else none) := by
  have last : lastUpdated [(.store key value, .done result)] other = none := rfl
  have first : firstStored [(.store key value, .done result)] other =
      if result = true ∧ key = other then some value else none := by
    cases result with
    | false => rfl
    | true => by_cases same : key = other <;> simp [firstStored, same]
  unfold mapped
  rw [lastUpdated_append, firstStored_append, last, first, Option.none_or, Option.or_assoc]

/-- An `update` that returned true rebinds its key. -/
theorem mapped_update : mapped (before ++ [(.update key value, .done result)]) other =
    if result = true ∧ key = other then some value else before.mapped other := by
  have first : firstStored [(.update key value, .done result)] other = none := rfl
  have last : lastUpdated [(.update key value, .done result)] other =
      if result = true ∧ key = other then some value else none := by
    cases result with
    | false => rfl
    | true => by_cases same : key = other <;> simp [lastUpdated, same]
  unfold mapped
  rw [lastUpdated_append, firstStored_append, last, first, Option.or_none]
  by_cases rebound : result = true ∧ key = other
  · rw [if_pos rebound, if_pos rebound, Option.some_or, Option.some_or]
  · rw [if_neg rebound, if_neg rebound, Option.none_or]

theorem mapped_find : mapped (before ++ [(.find key, .found found)]) other = before.mapped other := by
  unfold mapped
  rw [lastUpdated_append, firstStored_append]
  show (none.or (before.lastUpdated other)).or ((before.firstStored other).or none) = _
  rw [Option.none_or, Option.or_none]

/-- Only what is stored is ever updated. -/
def Grounded (history : NodeHistory) : Prop :=
  ∀ key, (history.mapped key).isSome = true ↔ history.Stored key

theorem grounded_nil : Grounded [] := by
  intro key
  show (none : Option Bytes16).isSome = true ↔ (none : Option Bytes16).isSome = true
  rfl

theorem stored_store : Stored (before ++ [(.store key value, .done result)]) other ↔
    before.Stored other ∨ result = true ∧ key = other := by
  unfold Stored
  rw [firstStored_append, Option.isSome_or, Bool.or_eq_true]
  apply or_congr_right
  cases result with
  | false => simp [firstStored]
  | true => by_cases same : key = other <;> simp [firstStored, same]

theorem stored_update : Stored (before ++ [(.update key value, .done result)]) other ↔ before.Stored other := by
  unfold Stored
  rw [firstStored_append]
  show ((before.firstStored other).or none).isSome = true ↔ _
  rw [Option.or_none]

theorem stored_find : Stored (before ++ [(.find key, .found found)]) other ↔ before.Stored other := by
  unfold Stored
  rw [firstStored_append]
  show ((before.firstStored other).or none).isSome = true ↔ _
  rw [Option.or_none]

end NodeHistory

/-! ### Runs -/

variable [Digest]

namespace LinkedNode

/-- One call on a node with `capacity` pairs. -/
def call (node : LinkedNode) (capacity : Nat) : NodeCall → NodeAnswer × LinkedNode
  | .store key value =>
      let (stored, node) := node.store capacity key.val value.val
      (.done stored, node)
  | .update key value =>
      let (updated, node) := node.update key.val value.val
      (.done updated, node)
  | .find key => (.found (node.find key.val), node)

/-- The node after a sequence of calls, with their answers. -/
def run (capacity : Nat) (state : LinkedNode × NodeHistory) (calls : List NodeCall) :
    LinkedNode × NodeHistory :=
  calls.foldl
    (fun state call =>
      let (answer, node) := state.1.call capacity call
      (node, state.2 ++ [(call, answer)]))
    state

/-- The arrays of a node and its counter stand for the map that a history promises. -/
structure Keeps (node : LinkedNode) (capacity : Nat) (history : NodeHistory) : Prop where
  bounded : node.next ≤ capacity
  distinct : node.DistinctKeys
  marked : node.Fingerprinted
  mapped : ∀ key : Bytes16, node.find key.val = history.mapped key
  grounded : history.Grounded

variable {node : LinkedNode} {capacity : Nat} {history : NodeHistory}

/-- The node as constructed, over whatever its memory held. -/
theorem keeps_fresh (capacity : Nat) (type : LinkedNodeType) (memory : LinkedNode) :
    (fresh type memory).Keeps capacity [] where
  bounded := Nat.zero_le capacity
  distinct _ isBelow := absurd isBelow (Nat.not_lt_zero _)
  marked _ isBelow := absurd isBelow (Nat.not_lt_zero _)
  mapped key := find_of_next_zero rfl key.val
  grounded := NodeHistory.grounded_nil

namespace Keeps

variable (keeps : node.Keeps capacity history)

include keeps

theorem stored_iff (key : Bytes16) : (node.find key.val).isSome = true ↔ history.Stored key := by
  rw [keeps.mapped]
  exact keeps.grounded key

theorem store (key value : Bytes16) :
    (node.store capacity key.val value.val).2.Keeps capacity
      (history ++ [(.store key value, .done (node.store capacity key.val value.val).1)]) := by
  have reports : (node.store capacity key.val value.val).1 = decide (node.next < capacity) :=
    store_fst capacity key.val value.val
  constructor
  case bounded => exact store_next_le keeps.bounded key.val value.val
  case distinct => exact keeps.distinct.store keeps.marked capacity key value
  case marked => exact keeps.marked.store capacity key value
  case mapped =>
    intro other
    rw [NodeHistory.mapped_store, reports]
    by_cases room : node.next < capacity
    · rw [find_store room, keeps.mapped, keeps.mapped]
      by_cases same : other = key
      · rw [if_pos same, if_pos ⟨decide_eq_true room, same.symm⟩, same]
      · rw [if_neg same, if_neg (fun both => same both.2.symm), Option.or_none]
    · rw [if_neg (fun both => room (of_decide_eq_true both.1)), Option.or_none, LinkedNode.store, if_neg room]
      exact keeps.mapped other
  case grounded =>
    intro other
    rw [NodeHistory.mapped_store, NodeHistory.stored_store, Option.isSome_or, Bool.or_eq_true,
      keeps.grounded other]
    apply or_congr_right
    split
    next bound => exact iff_of_true rfl bound
    next free => exact iff_of_false Bool.false_ne_true free

theorem update (key value : Bytes16) :
    (node.update key.val value.val).2.Keeps capacity
      (history ++ [(.update key value, .done (node.update key.val value.val).1)]) := by
  have reports : (node.update key.val value.val).1 = (node.find key.val).isSome := by
    rw [update_fst, find_isSome_eq]
  constructor
  case bounded =>
    rw [update_next]
    exact keeps.bounded
  case distinct =>
    intro left leftBound right rightBound same
    rw [update_next] at leftBound rightBound
    rw [update_pairs_key, update_pairs_key] at same
    exact keeps.distinct left leftBound right rightBound same
  case marked => exact keeps.marked.update key value.val
  case mapped =>
    intro other
    rw [NodeHistory.mapped_update, reports]
    by_cases present : (node.find key.val).isSome = true
    · by_cases same : other = key
      · rw [if_pos ⟨present, same.symm⟩, same]
        exact find_update_self present
      · rw [if_neg (fun both => same both.2.symm), find_update_of_ne same]
        exact keeps.mapped other
    · rw [if_neg (fun both => present both.1), update_of_none (Option.not_isSome_iff_eq_none.mp present)]
      exact keeps.mapped other
  case grounded =>
    intro other
    rw [NodeHistory.mapped_update, NodeHistory.stored_update, reports, ← keeps.grounded other]
    split
    next rebound =>
      have present := rebound.1
      rw [rebound.2, keeps.mapped] at present
      exact iff_of_true rfl present
    next => exact Iff.rfl

theorem lookup (key : Bytes16) :
    node.Keeps capacity (history ++ [(.find key, .found (node.find key.val))]) := by
  constructor
  case bounded => exact keeps.bounded
  case distinct => exact keeps.distinct
  case marked => exact keeps.marked
  case mapped =>
    intro other
    rw [NodeHistory.mapped_find]
    exact keeps.mapped other
  case grounded =>
    intro other
    rw [NodeHistory.mapped_find, NodeHistory.stored_find]
    exact keeps.grounded other

/-- One call. -/
theorem call (nodeCall : NodeCall) :
    (node.call capacity nodeCall).2.Keeps capacity
      (history ++ [(nodeCall, (node.call capacity nodeCall).1)]) := by
  cases nodeCall with
  | store key value => exact keeps.store key value
  | update key value => exact keeps.update key value
  | find key => exact keeps.lookup key

/-- A whole run, from any state with its history so far. -/
theorem run (calls : List NodeCall) :
    (LinkedNode.run capacity (node, history) calls).1.Keeps capacity
      (LinkedNode.run capacity (node, history) calls).2 := by
  induction calls generalizing node history with
  | nil => exact keeps
  | cons first rest inductionHypothesis =>
      show (LinkedNode.run capacity ((node.call capacity first).2, _) rest).1.Keeps capacity _
      exact inductionHypothesis (keeps.call first)

end Keeps

/-- The history records exactly the calls made. -/
theorem run_calls (capacity : Nat) (state : LinkedNode × NodeHistory) (calls : List NodeCall) :
    (run capacity state calls).2.map Prod.fst = state.2.map Prod.fst ++ calls := by
  induction calls generalizing state with
  | nil => rw [List.append_nil]; rfl
  | cons first rest inductionHypothesis =>
      show (run capacity _ rest).2.map Prod.fst = _
      rw [inductionHypothesis, List.map_append, List.append_assoc]
      rfl

/-- What a node of fixed size promises after its calls. -/
structure IsBoundedMap (node : LinkedNode) (capacity : Nat) (history : NodeHistory) : Prop where
  bounded : node.next ≤ capacity
  distinct : node.DistinctKeys
  marked : node.Fingerprinted
  find : ∀ key : Bytes16, node.find key.val = history.mapped key
  update : ∀ key value : Bytes16, (node.update key.val value.val).1 = true ↔ history.Stored key
  store : ∀ key value : Bytes16, ¬ history.Stored key →
    ((node.store capacity key.val value.val).1 = true ↔ node.next < capacity)

/-- A node is a bounded map that only grows, with updates, whatever calls it took. -/
theorem run_isBoundedMap (capacity : Nat) (type : LinkedNodeType) (memory : LinkedNode)
    (calls : List NodeCall) :
    (run capacity (fresh type memory, []) calls).2.map Prod.fst = calls ∧
      (run capacity (fresh type memory, []) calls).1.IsBoundedMap capacity
        (run capacity (fresh type memory, []) calls).2 := by
  have keeps := (keeps_fresh capacity type memory).run calls
  refine ⟨run_calls capacity _ calls, keeps.bounded, keeps.distinct, keeps.marked, keeps.mapped, ?_, ?_⟩
  · intro key value
    rw [update_fst, ← find_isSome_eq]
    exact keeps.stored_iff key
  · intro key value _
    rw [store_fst]
    exact decide_eq_true_iff

end LinkedNode

end DiStore.DataLayer
