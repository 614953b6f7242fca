import DiStore.Cluster.Scan
import DiStore.DataLayer.Entries
import Mathlib.Data.List.Sort

/-!
Contract: the values that the scan of one node returns.

Owns: which records `LinkedNode::scan` appends to its result, and in which order.

Does not own: the scan over several nodes (`Cluster.ScanCount`).
-/

set_option autoImplicit false

namespace DiStore.DataLayer.LinkedNode

/-- A key from which a scan can start: `compare` reads no byte behind the stored key. -/
abbrev StartKey := { key : Str // key.length ≤ keyLen }

variable (node : LinkedNode) (key : StartKey) (ct : Nat) (ret : List Bytes16)

/-- The stored records from a key on, in slot order. -/
def matching : List KV := node.records.filter fun pair => key.val ≤ pair.key.val

/-- A scan of a node appends the values of the first `ct` records from the key on, in the order
of their slots, and reports how many they are. -/
theorem scan_takes_first :
    node.scan key.val ct ret =
      (min ct (node.matching key).length, ret ++ ((node.matching key).take ct).map KV.value) := by
  unfold scan matching records
  rw [foldl_scanSlot node key.val ct _ _ (Nat.zero_le ct)]
  show (min ct (0 + _), _) = _
  rw [Nat.zero_add]
  rfl

/-- The records of the smallest keys, in ascending order. -/
def smallest : List KV :=
  ((node.matching key).insertionSort fun left right => left.key.val ≤ right.key.val).take ct

/-- The record of the larger key lies in the first slot. -/
def largerFirst : LinkedNode :=
  { zeroed with
    next := 2
    pairs := fun index => if index = 0 then ⟨.fill 2, .fill 2⟩ else ⟨.fill 1, .fill 1⟩ }

theorem scan_of_largerFirst_takes_larger :
    ¬ ∀ (node : LinkedNode) (key : StartKey) (ct : Nat) (ret : List Bytes16), node.DistinctKeys →
      node.scan key.val ct ret =
        (min ct (node.matching key).length, ret ++ (node.smallest key ct).map KV.value) := by
  intro inOrder
  have distinct : largerFirst.DistinctKeys := by decide +kernel
  have scanned := inOrder largerFirst ⟨[], by decide⟩ 1 [] distinct
  revert scanned
  decide +kernel

end DiStore.DataLayer.LinkedNode
