import DiStore.Cluster.ComputeNode

/-!
Contract: `quick_put`, with the flush of the local stage.

Owns: the two node images the flush writes, the order of its allocations, writes and
insertions, and the reads that follow a flush.

`quick_put` holds `local_mutex` from its first read to its return, so it is one
step.
-/

set_option autoImplicit false

namespace DiStore.Cluster

open DiStore.Concurrency DiStore.DataLayer DiStore.Memory DiStore.SearchLayer

/-- What a flush draws from outside: the levels of its two insertions and how its
two writes complete. -/
structure FlushDraws where
  firstLevel : Level
  secondLevel : Level
  largerWrite : Completion
  smallerWrite : Completion

variable [Digest]

/-- `node->crc = crc_validate(node, node->type)`. -/
def sealed (node : LinkedNode) : LinkedNode := { node with crc := crcValidate node node.type }

/-- `remote` after the two `memcpy` from `to_target`. -/
def flushCopy (flushNode target : LinkedNode) (llink rlink : RemotePointer) : LinkedNode :=
  { flushNode with
    llink := llink
    rlink := rlink
    fingerprints := target.fingerprints
    pairs := fun index => if index < 10 then target.pairs index else flushNode.pairs index
    next := target.next }

/-- `remote` before its write: the full node with the new record. -/
def flushLarger (flushNode target : LinkedNode) (llink rlink : RemotePointer) (key value : Str) :
    LinkedNode :=
  sealed ((flushCopy flushNode target llink rlink).store 12 key value).2

namespace ComputeNode

/-- The end of the flush: both nodes enter the search layer. -/
def flushIndex (node : ComputeNode) (slot : Fin 2) (larger smaller : RemotePointer) (draws : FlushDraws) :
    ComputeNode :=
  let anchors := node.stage.anchors
  let slist :=
    if slot = 0 then
      (node.slist.insert (anchors 0) larger .type12 draws.firstLevel.val).insert (anchors 1) smaller .type10
        draws.secondLevel.val
    else
      (node.slist.insert (anchors 0) smaller .type10 draws.firstLevel.val).insert (anchors 1) larger .type12
        draws.secondLevel.val
  { node with slist := slist, remotePut := true }

/-- The image of the larger node: the node with the smaller anchor links to the other. -/
def largerImage (flushNode : LinkedNode) (stage : LocalStage) (slot : Fin 2) (smaller : RemotePointer)
    (key value : Str) : LinkedNode :=
  if slot = 0 then flushLarger flushNode (stage.nodes slot) nullptr smaller key value
  else flushLarger flushNode (stage.nodes slot) smaller nullptr key value

/-- `no_move` with its links. -/
def smallerNode (stage : LocalStage) (slot : Fin 2) (larger : RemotePointer) : LinkedNode :=
  if slot = 0 then { stage.nodes (1 - slot) with llink := larger, rlink := nullptr }
  else { stage.nodes (1 - slot) with llink := nullptr, rlink := larger }

/-- The flush once it has its two chunks. -/
def flushTo (node : ComputeNode) (thread : ThreadId) (slot : Fin 2) (larger smaller : RemotePointer)
    (key value : Str) (draws : FlushDraws) : Bool × ComputeNode :=
  let remote := largerImage node.flushNode node.stage slot smaller key value
  let noMove := smallerNode node.stage slot larger
  let node := { node with flushNode := remote, stage := node.stage.setNode (1 - slot) noMove }
  let (written, node) := node.writeTo thread larger (sizeofNode .type12) remote draws.largerWrite
  if written then
    let node := { node with stage := node.stage.setNode (1 - slot) (sealed noMove) }
    let (written, node) := node.writeTo thread smaller (sizeofNode .type10) (sealed noMove) draws.smallerWrite
    if written then (true, node.flushIndex slot larger smaller draws) else (false, node)
  else
    (false, node)

/-- `quick_put` once the picked node has refused the record. -/
def flush (node : ComputeNode) (source : SegmentSource) (thread : ThreadId) (slot : Fin 2)
    (key value : Str) (draws : FlushDraws) : Bool × ComputeNode :=
  let (smaller, node) := node.allocate source thread (sizeofNode .type10)
  let (larger, node) := node.allocate source thread (sizeofNode .type12)
  node.flushTo thread slot larger smaller key value draws

/-- `quick_put`. -/
def quickPut (node : ComputeNode) (source : SegmentSource) (thread : ThreadId) (key value : Str)
    (draws : FlushDraws) : Bool × ComputeNode :=
  if node.remotePut then (false, node)
  else
    let (stage, slot) := node.stage.quickPutPickNode key
    let (stored, target) := (stage.nodes slot).store 10 key value
    if stored then (true, { node with stage := stage.setNode slot target })
    else flush { node with stage := stage } source thread slot key value draws

/-- What a client reads through `fuzzy_search` and `find` in the image of the node it
names, when no transfer is in flight. -/
def lookup (node : ComputeNode) (key : Str) : Option Bytes16 :=
  (node.slist.fuzzySearch key).bind fun found =>
    (node.remote (node.slist.nodes found).dataNode).find key

end ComputeNode

end DiStore.Cluster
