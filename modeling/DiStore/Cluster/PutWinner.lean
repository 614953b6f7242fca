import DiStore.Cluster.ComputeNode
import DiStore.Cluster.Handover
import DiStore.Cluster.QuickPut
import DiStore.Cluster.SplitNode

/-!
Contract: what a put does between winning its two locks and returning.

Owns: `fetch_two`, `try_put_to_existing_node`, `eager_morph`,
`out_of_place_split_node` with its write-back, the loop path of `put10`, the plan of
each of `put10`, `put12`, `put14` and `put16`, and the release.

Does not own: how the locks are won, and the steps of other threads in between
(`Cluster.LockMachine`). The queue is the one the winner finds; nothing joins it.
-/

set_option autoImplicit false

namespace DiStore.Cluster

open DiStore.Concurrency DiStore.DataLayer DiStore.Memory DiStore.SearchLayer

/-- How a batch of writes ends: the poll finds it done, or finds a failure after the
first `performed` of them. -/
inductive BatchCompletion where
  | done
  | failed (performed : Nat)
deriving DecidableEq

/-- What a put draws from outside: how its writes complete, and the level of a new
search node. -/
structure PutDraws where
  level : Level
  write : Completion
  batch : BatchCompletion

/-- One work request of a batch: the first `size` bytes of a slot. -/
structure WorkRequest where
  remote : RemotePointer
  size : Nat
  slot : Nat
deriving DecidableEq

/-- What is done once a node cannot take all requests in place. The template arguments
of `write_back_splitted` are separate from the tags. -/
inductive PutPlan where
  | morph
  | eager
  | split (leftCap : Nat) (leftType rightType leftArgument rightArgument : LinkedNodeType)
deriving DecidableEq

/-- How a put ended: whether it returned, and what it answered to others. -/
structure PutOutcome where
  ret : Bool
  replies : List (ConcurrencyRequest × Reply)
  node : ComputeNode

namespace ComputeNode

section Transfers

variable (node : ComputeNode) (source : SegmentSource) (thread : ThreadId) (target : NodeId)

/-- `data_node->backward`. A winner has locked that node, so the pointer is not null. -/
def backwardOf : NodeId := (node.slist.nodes target).backward.getD SkipList.head

def setRequests (requests : List ConcurrencyRequest) : ComputeNode :=
  { node with
    contexts := Function.update node.contexts thread
      { node.contexts thread with requests := requests } }

def setMaxDepth (maxDepth : Int) : ComputeNode :=
  { node with
    contexts := Function.update node.contexts thread
      { node.contexts thread with maxDepth := maxDepth } }

def setDataNode (remote : RemotePointer) : ComputeNode :=
  node.setSlist (node.slist.setDataNode target remote)

def setType (type : LinkedNodeType) : ComputeNode := node.setSlist (node.slist.setType target type)

def setCtx (ctx : Option ThreadId) : ComputeNode := node.setSlist (node.slist.setCtx target ctx)

/-- `fetch_two`: the node into the second slot, its predecessor into the first. -/
def fetchTwo : ComputeNode :=
  let right := node.slist.nodes target
  let left := node.slist.nodes (node.backwardOf target)
  (node.read thread right.dataNode (sizeofNode right.type) 1).read thread left.dataNode
    (sizeofNode left.type) 0

/-- The writes of a batch, of which the first `performed` reach memory. -/
def writeBatch (node : ComputeNode) (thread : ThreadId) : List WorkRequest → Nat → ComputeNode
  | [], _ => node
  | request :: rest, performed =>
      (node.write thread request.remote request.size request.slot
        (if 0 < performed then .done else .failed false)).writeBatch thread rest (performed - 1)

/-- `post_batch_write` and the poll. -/
def postBatchWrite (requests : List WorkRequest) : BatchCompletion → Bool × ComputeNode
  | .done => (true, node.writeBatch thread requests requests.length)
  | .failed performed => (false, node.writeBatch thread requests performed)

/-- `write_back_morphed`. -/
def writeBackMorphed (completion : BatchCompletion) : RemotePointer × ComputeNode :=
  let morphed := node.buffers thread 1
  let (r, node) := node.allocate source thread (sizeofNode morphed.type)
  let pred := node.buffers thread 0
  let node := node.setSlot thread 0 { pred with rlink := r }
  let (written, node) := node.postBatchWrite thread
    [⟨(node.slist.nodes (node.backwardOf target)).dataNode, sizeofNode pred.type, 0⟩,
      ⟨r, sizeofNode morphed.type, 1⟩] completion
  if written then (r, node.setDataNode target r) else (nullptr, node)

/-- `write_back_splitted<LNodeType, RNodeType>`. -/
def writeBackSplitted (leftArgument rightArgument : LinkedNodeType) (completion : BatchCompletion) :
    RemotePointer × ComputeNode :=
  let (l, node) := node.allocate source thread (sizeofNode leftArgument)
  let (r, node) := node.allocate source thread (sizeofNode rightArgument)
  let pred := node.buffers thread 0
  let left := node.buffers thread 1
  let right := node.buffers thread 2
  let node := node.setSlot thread 0 { pred with rlink := l }
  let node := node.setSlot thread 2 { right with rlink := left.rlink }
  let node := node.setSlot thread 1 { left with rlink := r }
  let (written, node) := node.postBatchWrite thread
    [⟨(node.slist.nodes (node.backwardOf target)).dataNode, sizeofNode pred.type, 0⟩,
      ⟨l, sizeofNode leftArgument, 1⟩, ⟨r, sizeofNode rightArgument, 2⟩] completion
  if written then (r, node.setDataNode target l) else (nullptr, node)

/-- `async_update`. -/
def asyncUpdate (anchor : Str) (type : LinkedNodeType) (remote : RemotePointer) (level : Level) :
    ComputeNode :=
  let (newNode, slist) := node.slist.linkBehind target anchor type remote
  let node := node.setSlist slist
  if level.val = 1 then node
  else { node with updateQueue := node.updateQueue ++ [⟨level.val, newNode⟩] }

/-- The buffer and the queue after a loop over the queue. -/
def staged (pred real : LinkedNode) (requests : List ConcurrencyRequest) : ComputeNode :=
  ((node.setSlot thread 0 pred).setSlot thread 1 real).setRequests thread requests

/-- The stores with which a winner leaves. -/
def release : ComputeNode :=
  ((node.setCtx target none).setCtx (node.backwardOf target) none).setMaxDepth thread 4

end Transfers

variable [Digest]

/-- `node->type = type; node->crc = crc_validate(node, node->type)`. -/
def sealedAs (type : LinkedNodeType) (node : LinkedNode) : LinkedNode :=
  sealed { node with type := type }

variable (node : ComputeNode) (source : SegmentSource) (thread : ThreadId) (target : NodeId)
variable (key value : Str) (draws : PutDraws)

/-- What `try_put_to_existing_node` serves once it has stored the put's own record. -/
def firstWork (type : LinkedNodeType) : Handover :=
  helpOthers type.capacity (node.slist.nodes target).anchor (node.buffers thread 0)
    ((node.buffers thread 1).store type.capacity key value).2 (node.contexts thread).requests

/-- `try_put_to_existing_node` for a node type: the pair it returns, and the answers. -/
def tryPutToExistingNode (type : LinkedNodeType) :
    (Bool × Nat) × List (ConcurrencyRequest × Reply) × ComputeNode :=
  if ((node.buffers thread 1).store type.capacity key value).1 then
    let work := node.firstWork thread target key value type
    let node := node.staged thread work.pred work.real work.requests
    if work.requests.length = 0 then
      let (written, node) := node.writeBackCurrent thread (node.slist.nodes target).dataNode
        (sizeofNode type) draws.write
      ((written, 0), work.replies, node)
    else ((true, work.requests.length), work.replies, node)
  else ((false, (node.contexts thread).requests.length + 1), [], node)

/-- What `put10` stores and serves before it chooses a type. -/
def morphWork (done : Bool) : Handover :=
  let real := node.buffers thread 1
  morphOthers (node.slist.nodes target).anchor (node.buffers thread 0)
    (if done then real else (real.store 16 key value).2) (node.contexts thread).requests

/-- What `eager_morph` stores and serves. -/
def eagerWork (done : Bool) : Handover :=
  let real := node.buffers thread 1
  helpOthers 16 (node.slist.nodes target).anchor (node.buffers thread 0)
    (if done then real else (real.store 16 key value).2) (node.contexts thread).requests

/-- What `out_of_place_split_node` stores and serves, on its stack node. -/
def splitWork (done : Bool) : Handover :=
  let buffer := bufferNode (node.buffers thread 1)
  helpOthers bufferCapacity (node.slist.nodes target).anchor (node.buffers thread 0)
    (if done then buffer else (buffer.store bufferCapacity key value).2) (node.contexts thread).requests

/-- `put10` once some request is pending. -/
def morphPath (done : Bool) : PutOutcome :=
  let work := node.morphWork thread target key value done
  let real := sealedAs (morphNode work.real) work.real
  let (remote, node) := (node.staged thread work.pred real work.requests).writeBackMorphed source thread
    target draws.batch
  ⟨remote ≠ nullptr, work.replies, (node.setDataNode target remote).setType target real.type⟩

/-- `eager_morph`. -/
def eagerMorph (done : Bool) : PutOutcome :=
  let work := node.eagerWork thread target key value done
  let real := sealedAs .type16 work.real
  let (remote, node) := (node.staged thread work.pred real work.requests).writeBackMorphed source thread
    target draws.batch
  if remote = nullptr then ⟨false, work.replies, node⟩
  else
    let node := node.setSlot thread 0 { node.buffers thread 0 with rlink := remote }
    ⟨true, work.replies, (node.setDataNode target remote).setType target real.type⟩

/-- `out_of_place_split_node`: the halves in the second and third slot, and the right
anchor. -/
def outOfPlaceSplitNode (leftCap : Nat) (done : Bool) :
    Str × List (ConcurrencyRequest × Reply) × ComputeNode :=
  let work := node.splitWork thread target key value done
  let (left, right, anchor) :=
    splitBuffer work.real (node.buffers thread 1) (node.buffers thread 2) leftCap
  (anchor, work.replies,
    (node.staged thread work.pred left work.requests).setSlot thread 2 right)

/-- The split paths of `put12`, `put14` and `put16`. -/
def splitPath (leftCap : Nat) (leftType rightType leftArgument rightArgument : LinkedNodeType)
    (done : Bool) : PutOutcome :=
  let (anchor, replies, node) := node.outOfPlaceSplitNode thread target key value leftCap done
  let node := node.setSlot thread 1 (sealedAs leftType (node.buffers thread 1))
  let node := node.setSlot thread 2 (sealedAs rightType (node.buffers thread 2))
  let (r, node) := node.writeBackSplitted source thread target leftArgument rightArgument draws.batch
  if r = nullptr then ⟨false, replies, node.setType target leftType⟩
  else
    ⟨true, replies,
      (node.asyncUpdate target anchor rightType r draws.level).setType target leftType⟩

/-- What a put does with the requests that it could not take in place. -/
def followPlan (done : Bool) : PutPlan → PutOutcome
  | .morph => node.morphPath source thread target key value draws done
  | .eager => node.eagerMorph source thread target key value draws done
  | .split leftCap leftType rightType leftArgument rightArgument =>
      node.splitPath source thread target key value draws leftCap leftType rightType leftArgument
        rightArgument done

/-- A put of one node type from the fetch to the release; `plan` maps the number of
pending requests to what the put does with them. -/
def putWon (type : LinkedNodeType) (plan : Nat → PutPlan) : PutOutcome :=
  let node := node.fetchTwo thread target
  let ((done, pendings), replies, node) :=
    node.tryPutToExistingNode thread target key value draws type
  let outcome : PutOutcome :=
    if pendings = 0 then ⟨true, [], node⟩
    else node.followPlan source thread target key value draws done (plan pendings)
  ⟨outcome.ret, replies ++ outcome.replies, outcome.node.release thread target⟩

end ComputeNode

/-! ### The four puts -/

/-- `put10`: 10 + 5 -> 16. -/
def plan10 (_pendings : Nat) : PutPlan := .morph

/-- `put12`: 12 + 5 -> 10 + 10. -/
def plan12 (pendings : Nat) : PutPlan :=
  if pendings ≤ 4 then .eager else .split 9 .type10 .type10 .type10 .type10

/-- `put14`: 14 + 5 -> 10 + 12; the template arguments are both `LinkedNode10`. -/
def plan14 (pendings : Nat) : PutPlan :=
  if pendings ≤ 2 then .eager else .split 8 .type10 .type12 .type10 .type10

/-- `put16`: 16 + 5 -> 12 + 12. -/
def plan16 (pendings : Nat) : PutPlan :=
  if pendings ≤ 2 then .split 9 .type10 .type10 .type10 .type10
  else if pendings ≤ 4 then .split 9 .type10 .type12 .type10 .type12
  else .split 10 .type12 .type12 .type12 .type12

/-- The plan of the put that `put_dispatcher` calls for a node type. -/
def planOf : LinkedNodeType → Nat → PutPlan
  | .type12 => plan12
  | .type14 => plan14
  | .type16 => plan16
  | _ => plan10

namespace ComputeNode

variable [Digest] (node : ComputeNode) (source : SegmentSource) (thread : ThreadId) (target : NodeId)
variable (key value : Str) (draws : PutDraws)

def put10 : PutOutcome := node.putWon source thread target key value draws .type10 plan10

def put12 : PutOutcome := node.putWon source thread target key value draws .type12 plan12

def put14 : PutOutcome := node.putWon source thread target key value draws .type14 plan14

def put16 : PutOutcome := node.putWon source thread target key value draws .type16 plan16

/-- The put that `put_dispatcher` calls for a data node of a type. -/
def putFor : LinkedNodeType → PutOutcome
  | .type12 => node.put12 source thread target key value draws
  | .type14 => node.put14 source thread target key value draws
  | .type16 => node.put16 source thread target key value draws
  | _ => node.put10 source thread target key value draws

theorem putFor_eq {type : LinkedNodeType} (isData : type.IsData) :
    node.putFor source thread target key value draws type =
      node.putWon source thread target key value draws type (planOf type) := by
  cases type <;> first | exact absurd isData id | rfl

end ComputeNode

end DiStore.Cluster
