import DiStore.DataLayer.NodeFacts
import Mathlib.Algebra.GroupWithZero.Nat

/-!
Contract: the compute node before its first flush.

Owns: `local_nodes`, `local_anchors`, `quick_put_pick_node`, the part of
`quick_put` that stays local, and the local branches of `get` and `update`.

Does not own: the flush itself (`Cluster.Flush`), or what happens once
`remote_put` is set.

All three calls hold `local_mutex` for the part modelled here, so one call is one
step.
-/

set_option autoImplicit false

namespace DiStore.Cluster

open DiStore.DataLayer

/-- `local_nodes` and `local_anchors`, both of length `LOCAL_MAX_NODES`. An anchor
that was never set is the empty string. -/
structure LocalStage where
  nodes : Fin 2 → LinkedNode
  anchors : Fin 2 → Str

/-- The two slots can be named by numerals. -/
instance slotsNonzero : NeZero 2 := ⟨by decide⟩

namespace LocalStage

/-- `local_nodes[i] = new LinkedNode10` over the heap memory it is given. -/
def initial (heap : Fin 2 → LinkedNode) : LocalStage where
  nodes := fun slot => LinkedNode.fresh .type10 (heap slot)
  anchors := fun _ => []

variable (stage : LocalStage)

/-- `std::swap` of both pairs of array entries. -/
def swapped : LocalStage where
  nodes := fun slot => stage.nodes (1 - slot)
  anchors := fun slot => stage.anchors (1 - slot)

def setAnchor (slot : Fin 2) (anchor : Str) : LocalStage :=
  { stage with anchors := Function.update stage.anchors slot anchor }

def setNode (slot : Fin 2) (node : LinkedNode) : LocalStage :=
  { stage with nodes := Function.update stage.nodes slot node }

/-- `quick_put_pick_node`: the chosen node is named by its array index. -/
def quickPutPickNode (key : Str) : LocalStage × Fin 2 :=
  if stage.anchors 0 = [] then
    (stage.setAnchor 0 key, 0)
  else if key < stage.anchors 0 then
    -- don't migrate, just use the second node as the smaller one
    let stage := if stage.anchors 1 = [] then stage.swapped else stage
    (stage.setAnchor 0 key, 0)
  else if stage.anchors 1 = [] then
    (stage.setAnchor 1 key, 1)
  else if stage.anchors 1 < key then
    (stage, 1)
  else
    (stage, 0)

variable [Digest]

/-- `quick_put` up to the point where it either returns or starts the flush:
`none` when the picked node refuses the record. -/
def quickPut (key value : Str) : Option LocalStage :=
  let (picked, slot) := stage.quickPutPickNode key
  let (stored, node) := (picked.nodes slot).store 10 key value
  if stored then some (picked.setNode slot node) else none

/-- The local branch of `get`. -/
def get (key : Str) : Option Bytes16 :=
  if stage.anchors 1 ≠ [] ∧ ¬ key < stage.anchors 1 then
    (stage.nodes 1).find key
  else
    (stage.nodes 0).find key

/-- The node that the local branch of `update` picks. -/
def updateSlot (key : Str) : Fin 2 := if stage.anchors 1 < key then 1 else 0

/-- The local branch of `update`. -/
def update (key value : Str) : Bool × LocalStage :=
  let slot := stage.updateSlot key
  let (updated, node) := (stage.nodes slot).update key value
  (updated, stage.setNode slot node)

end LocalStage

/-- One client call made while `remote_put` is still false. -/
inductive LocalCall where
  | put (key value : Bytes16)
  | update (key value : Bytes16)
  | get (key : Bytes16)
deriving DecidableEq

/-- What a call returned. -/
inductive Answer where
  | done (succeeded : Bool)
  | found (value : Option Bytes16)
deriving DecidableEq

variable [Digest]

/-- One call on the local stage; `none` when the call flushes it. -/
def LocalStage.call (stage : LocalStage) : LocalCall → Option (LocalStage × Answer)
  | .put key value => (stage.quickPut key.val value.val).map fun next => (next, .done true)
  | .update key value =>
      let (updated, next) := stage.update key.val value.val
      some (next, .done updated)
  | .get key => some (stage, .found (stage.get key.val))

/-- The answers of a sequence of calls that all stay local, and the final stage. -/
def LocalStage.calls (stage : LocalStage) :
    List LocalCall → Option (LocalStage × List (LocalCall × Answer))
  | [] => some (stage, [])
  | first :: rest => do
      let (next, answer) ← stage.call first
      let (last, answers) ← next.calls rest
      return (last, (first, answer) :: answers)

end DiStore.Cluster
