import DiStore.Cluster.Client
import DiStore.Library.Completions
import DiStore.Memory.TaggedPointer

/-!
Contract: the RDMA requests of each operation, in the order of the source.

Owns: which context `get_rdma` and `get_parallel_rdma` choose, the posts and polls of every
transfer helper, and the helpers that `get`, `update`, `put` with the flush, and `scan` call.

Does not own: what the requests transfer (`Cluster.ComputeNode`). Other clients act between
the attempts of an operation, so each attempt starts in a state of its own; a lock that is
lost costs no request.
-/

set_option autoImplicit false

namespace DiStore.Cluster

open DiStore.Concurrency DiStore.DataLayer DiStore.Library DiStore.Memory DiStore.SearchLayer

/-- One of a thread's contexts: an index of `rdma_ctxs` or of `parallel_rdma_ctxs`. -/
structure RdmaContext where
  parallel : Bool
  index : Nat
deriving DecidableEq

/-- The tag of a pointer. -/
def nodeOf (remote : RemotePointer) : Nat := TaggedPointer.getNode (BitVec.ofNat 64 remote)

/-- `get_rdma`; `Cluster.BringUp` says how the context of this index was connected. -/
def getRdma (remote : RemotePointer) : RdmaContext := ⟨false, nodeOf remote⟩

/-- `get_parallel_rdma`. -/
def getParallelRdma (remote : RemotePointer) : RdmaContext := ⟨true, nodeOf remote⟩

abbrev Accesses := List (Access RdmaContext RemotePointer)

namespace Accesses

/-! ### Transfers -/

/-- One signaled request to a pointer on its own context, and the poll. -/
def single (remote : RemotePointer) : Accesses :=
  [.post (getRdma remote) remote true, .poll (some (getRdma remote))]

def fetchAs (remote : RemotePointer) : Accesses := single remote

def writeTo (remote : RemotePointer) : Accesses := single remote

def writeBackCurrent (remote : RemotePointer) : Accesses := single remote

/-- `fetch_two`. -/
def fetchTwo (left right : RemotePointer) : Accesses :=
  let rdma := getRdma left
  [.post rdma right true, .post rdma left true, .poll (some rdma), .poll (some rdma)]

/-- The fetch of `try_win_for_insert` when a breakdown is given. -/
def fetchTwoParallel (left right : RemotePointer) : Accesses :=
  let rdma := getRdma left
  let prdma := getParallelRdma left
  [.post rdma right true, .post prdma left true, .poll (some rdma), .poll (some prdma)]

/-- `fetch_two_async`: the first request is not signaled. -/
def fetchTwoAsync (left right : RemotePointer) : Accesses :=
  let rdma := getRdma left
  [.post rdma left false, .post rdma right true]

/-- `poll_fetch_two_async`. -/
def pollFetchTwoAsync (rdma : Option RdmaContext) : Accesses := [.poll rdma]

/-- The batch of `write_back_morphed`: the last of its requests is signaled. -/
def writeBackMorphed (pred r : RemotePointer) : Accesses :=
  let rdma := getRdma r
  [.post rdma pred false, .post rdma r true, .poll (some rdma)]

/-- The batch of `write_back_splitted`. -/
def writeBackSplitted (pred l r : RemotePointer) : Accesses :=
  let rdma := getRdma l
  [.post rdma pred false, .post rdma l false, .post rdma r true, .poll (some rdma)]

end Accesses

/-- A call of a transfer helper, with the remote pointers it accesses. -/
inductive HelperCall where
  | fetchAs (remote : RemotePointer)
  | writeTo (remote : RemotePointer)
  | writeBackCurrent (remote : RemotePointer)
  | fetchTwo (left right : RemotePointer)
  | fetchTwoParallel (left right : RemotePointer)
  | fetchTwoAsync (left right : RemotePointer)
  | pollFetchTwoAsync (rdma : Option RdmaContext)
  | writeBackMorphed (pred r : RemotePointer)
  | writeBackSplitted (pred l r : RemotePointer)
deriving DecidableEq

namespace HelperCall

def accesses : HelperCall → Accesses
  | .fetchAs remote => .fetchAs remote
  | .writeTo remote => .writeTo remote
  | .writeBackCurrent remote => .writeBackCurrent remote
  | .fetchTwo left right => .fetchTwo left right
  | .fetchTwoParallel left right => .fetchTwoParallel left right
  | .fetchTwoAsync left right => .fetchTwoAsync left right
  | .pollFetchTwoAsync rdma => .pollFetchTwoAsync rdma
  | .writeBackMorphed pred r => .writeBackMorphed pred r
  | .writeBackSplitted pred l r => .writeBackSplitted pred l r

def pointers : HelperCall → List RemotePointer
  | .fetchAs remote => [remote]
  | .writeTo remote => [remote]
  | .writeBackCurrent remote => [remote]
  | .fetchTwo left right => [left, right]
  | .fetchTwoParallel left right => [left, right]
  | .fetchTwoAsync left right => [left, right]
  | .pollFetchTwoAsync _ => []
  | .writeBackMorphed pred r => [pred, r]
  | .writeBackSplitted pred l r => [pred, l, r]

end HelperCall

namespace ComputeNode

/-! ### Operations -/

section Searches

variable (node : ComputeNode)

def dataNodeOf (searchNode : NodeId) : RemotePointer := (node.slist.nodes searchNode).dataNode

/-- `get` from `retry` to the test of the checksum. -/
def getAttempt (key : Str) : List HelperCall :=
  if node.remotePut then
    match node.slist.fuzzySearch key with
    | none => []
    | some found => [.fetchAs (node.dataNodeOf found)]
  else []

/-- `update` from `retry` on. -/
def updateAttempt (won : Bool) (key : Str) : List HelperCall :=
  if node.remotePut then
    match node.slist.fuzzySearch key with
    | none => []
    | some found =>
        if won then [.fetchAs (node.dataNodeOf found), .writeBackCurrent (node.dataNodeOf found)] else []
  else []

end Searches

variable [Digest] (node : ComputeNode) (source : SegmentSource) (thread : ThreadId) (target : NodeId)
variable (key value : Str) (draws : PutDraws)

/-- The fetch of a winner. -/
def fetchCall (breakdown : Bool) : HelperCall :=
  let left := node.dataNodeOf (node.backwardOf target)
  let right := node.dataNodeOf target
  if breakdown then .fetchTwoParallel left right else .fetchTwo left right

/-- `try_put_to_existing_node` writes back only what was stored and left no request. -/
def tryPutCalls (type : LinkedNodeType) : List HelperCall :=
  if ((node.buffers thread 1).store type.capacity key value).1 then
    if (node.firstWork thread target key value type).requests.length = 0 then
      [.writeBackCurrent (node.dataNodeOf target)]
    else []
  else []

def writeBackMorphedCall : HelperCall :=
  let r := (node.allocate source thread (sizeofNode (node.buffers thread 1).type)).1
  .writeBackMorphed (node.dataNodeOf (node.backwardOf target)) r

def writeBackSplittedCall (leftArgument rightArgument : LinkedNodeType) : HelperCall :=
  let (l, afterLeft) := node.allocate source thread (sizeofNode leftArgument)
  let (r, _) := afterLeft.allocate source thread (sizeofNode rightArgument)
  .writeBackSplitted (node.dataNodeOf (node.backwardOf target)) l r

def followPlanCall (done : Bool) : PutPlan → HelperCall
  | .morph =>
      let work := node.morphWork thread target key value done
      let real := sealedAs (morphNode work.real) work.real
      (node.staged thread work.pred real work.requests).writeBackMorphedCall source thread target
  | .eager =>
      let work := node.eagerWork thread target key value done
      let real := sealedAs .type16 work.real
      (node.staged thread work.pred real work.requests).writeBackMorphedCall source thread target
  | .split leftCap _ _ leftArgument rightArgument =>
      let (_, _, node) := node.outOfPlaceSplitNode thread target key value leftCap done
      node.writeBackSplittedCall source thread target leftArgument rightArgument

/-- A put of one node type from the fetch to the release. -/
def putWonCalls (breakdown : Bool) (type : LinkedNodeType) (plan : Nat → PutPlan) : List HelperCall :=
  let fetched := node.fetchTwo thread target
  let ((done, pendings), _, stored) := fetched.tryPutToExistingNode thread target key value draws type
  node.fetchCall target breakdown :: fetched.tryPutCalls thread target key value type ++
    if pendings = 0 then [] else [stored.followPlanCall source thread target key value done (plan pendings)]

/-- `put_dispatcher` from `retry` on. -/
def putAttempt (breakdown won : Bool) : List HelperCall :=
  let type := (node.slist.nodes target).type
  if type.IsData ∧ won = true then
    node.putWonCalls source thread target key value draws breakdown type (planOf type)
  else []

/-- `quick_put`: only the flush leaves the local stage. -/
def quickPutCalls : List HelperCall :=
  if node.remotePut then []
  else
    let (stage, slot) := node.stage.quickPutPickNode key
    if ((stage.nodes slot).store 10 key value).1 then []
    else
      let (smaller, afterSmaller) := allocate { node with stage := stage } source thread (sizeofNode .type10)
      let (larger, _) := afterSmaller.allocate source thread (sizeofNode .type12)
      [.writeTo larger, .writeTo smaller]

/-- The loop of `scan`; `rdma` is its variable. -/
def scanLoopCalls (count : Nat) : Nat → NodeId → Option RdmaContext → ScanState → List HelperCall
  | 0, _, _, _ => []
  | fuel + 1, second, rdma, state =>
      match state.node.slist.forward 0 second with
      | none => [.pollFetchTwoAsync rdma]
      | some first =>
          match state.node.slist.forward 0 first with
          | none => [.fetchAs (state.node.dataNodeOf first)]
          | some second =>
              let left := state.node.dataNodeOf first
              let fetch := HelperCall.fetchTwoAsync left (state.node.dataNodeOf second)
              let rdma := some (getRdma left)
              let state := (state.fetchTwoAsync thread first second).scanBoth key count
              let state := { state with flip := 1 - state.flip }
              match state.pollFetchTwoAsync thread with
              | .error _ => [fetch, .pollFetchTwoAsync rdma]
              | .ok state =>
                  fetch :: .pollFetchTwoAsync rdma ::
                    if state.total < count then scanLoopCalls count fuel second rdma state else []

/-- `scan`. -/
def scanCalls (count : Nat) : List HelperCall :=
  match node.slist.fuzzySearch key with
  | none => []
  | some first =>
      match node.slist.forward 0 first with
      | none => [.fetchAs (node.dataNodeOf first)]
      | some second =>
          if key ≤ (node.slist.nodes second).anchor then
            .fetchTwo (node.dataNodeOf first) (node.dataNodeOf second) ::
              scanLoopCalls thread key count node.slist.count second none (scanStart thread node first second)
          else [.fetchAs (node.dataNodeOf first)]

end ComputeNode

/-- An operation with the state that each of its attempts starts in, and whether it wins the lock. -/
inductive RemoteCall where
  | get (attempts : List ComputeNode) (key : Str)
  | update (attempts : List (ComputeNode × Bool)) (key : Str)
  | put (start : ComputeNode) (attempts : List (ComputeNode × Bool)) (key value : Str) (draws : PutDraws)
      (breakdown : Bool)
  | scan (start : ComputeNode) (key : Str) (count : Nat)

/-- The helpers that an operation calls. A put that did not end in `quick_put` finds its node once and
tries until it wins or is served. -/
def RemoteCall.calls [Digest] (source : SegmentSource) (thread : ThreadId) : RemoteCall → List HelperCall
  | .get attempts key => attempts.flatMap fun node => node.getAttempt key
  | .update attempts key => attempts.flatMap fun (node, won) => node.updateAttempt won key
  | .put start attempts key value draws breakdown =>
      start.quickPutCalls source thread key value ++
        match start.slist.fuzzySearch key with
        | none => []
        | some target =>
            if start.remotePut then
              attempts.flatMap fun (node, won) =>
                node.putAttempt source thread target key value draws breakdown won
            else []
  | .scan start key count => start.scanCalls thread key count

/-- The requests of an operation. -/
def RemoteCall.accesses [Digest] (source : SegmentSource) (thread : ThreadId) (operation : RemoteCall) : Accesses :=
  (operation.calls source thread).flatMap HelperCall.accesses

end DiStore.Cluster
