import DiStore.Cluster.Scan

/-!
Contract: the calls of the only registered client.

Owns: `drain_pending`, the two competitions for a lock, `put_dispatcher`, `put`, `get`
and `update` as one client runs them, and the states that such calls reach, the
background `calibrate` included.

A call runs alone: while it lasts no other thread takes a lock, reads a queue or writes
remote memory. A loop that waits for another thread, or for a checksum to change,
never ends then.
-/

set_option autoImplicit false

namespace DiStore.Cluster

open DiStore.Concurrency DiStore.DataLayer DiStore.Memory DiStore.SearchLayer

/-- How a call ends. -/
inductive CallEnd (α : Type) where
  | returned (result : α)
  | thrown
  | spins
deriving DecidableEq

namespace ComputeNode

section Locks

variable (node : ComputeNode) (thread : ThreadId) (target : NodeId)

/-- `drain_pending`: the requests of the last operation are sent back. -/
def drainPending : List (ConcurrencyRequest × Reply) × ComputeNode :=
  ((node.contexts thread).requests.map fun request => (request, ⟨false, true⟩),
    node.setRequests thread [])

def setContextType (type : ConcurrencyContextType) : ComputeNode :=
  { node with
    contexts := Function.update node.contexts thread { node.contexts thread with type := type } }

/-- `try_win_for_update`, with the fetch of a winner. -/
def tryWinForUpdate : Bool × ComputeNode :=
  let node := node.setContextType thread .update
  if (node.slist.nodes target).ctx = none then
    let node := (node.setCtx target (some thread)).setMaxDepth thread 4
    let node := node.fetchAs thread (node.slist.nodes target).dataNode
    (true, node.setMaxDepth thread (-1))
  else (false, node)

/-- `try_win_for_insert`. The fetch of a winner, between its last two stores to
`max_depth`, is the first step of `putWon`. -/
def tryWinForInsert : Bool × ComputeNode :=
  let node := (node.setMaxDepth thread (-1)).setContextType thread .insert
  if (node.slist.nodes target).ctx = none then
    let node := node.setCtx target (some thread)
    let pred := node.backwardOf target
    if (node.slist.nodes pred).ctx = none then
      (true, ((node.setCtx pred (some thread)).setMaxDepth thread 4).setMaxDepth thread (-1))
    else (false, (node.setMaxDepth thread 0).setCtx target none)
  else (false, node)

end Locks

variable [Digest]

section Calls

variable (node : ComputeNode) (source : SegmentSource) (thread : ThreadId) (key value : Str)

/-- `put_dispatcher`. A batch that failed makes the put throw. -/
def putDispatcher (target : NodeId) (draws : PutDraws) : CallEnd Bool × ComputeNode :=
  let type := (node.slist.nodes target).type
  if type.IsData then
    match (node.drainPending thread).2.tryWinForInsert thread target with
    | (true, node) =>
        let outcome := node.putFor source thread target key value draws type
        (if outcome.ret then .returned true else .thrown, outcome.node)
    | (false, node) => (.spins, node)
  else (.thrown, node)

/-- `put` once `quick_put` has not returned. -/
def remotePutCall (draws : PutDraws) : CallEnd Bool × ComputeNode :=
  match node.slist.fuzzySearch key with
  | none => (.thrown, node)
  | some target => node.putDispatcher source thread key value target draws

/-- `put`. -/
def put (flush : FlushDraws) (draws : PutDraws) : CallEnd Bool × ComputeNode :=
  if node.remotePut then node.remotePutCall source thread key value draws
  else
    match node.quickPut source thread key value flush with
    | (true, node) => (.returned true, node)
    | (false, node) => node.remotePutCall source thread key value draws

/-- `get`. -/
def get : CallEnd (Option Bytes16) × ComputeNode :=
  if node.remotePut then
    let node := (node.drainPending thread).2
    match node.slist.fuzzySearch key with
    | none => (.thrown, node)
    | some target =>
        let node := node.fetchAs thread (node.slist.nodes target).dataNode
        let buffer := node.buffers thread 0
        if crcValidate buffer (node.slist.nodes target).type = buffer.crc then
          (.returned (buffer.find key), node)
        else (.spins, node)
  else (.returned (node.stage.get key), node)

/-- The loop of `update` over its queue. -/
def updateOthers (buffer : LinkedNode) (requests : List ConcurrencyRequest) :
    LinkedNode × List (ConcurrencyRequest × Reply) :=
  requests.foldl
    (fun state request =>
      let (updated, buffer) := state.1.update request.tag.val request.content.val
      (buffer, state.2 ++ [(request, ⟨updated, false⟩)]))
    (buffer, [])

/-- `update`. A winner reads the node into the first slot, and `write_back_current` writes
from the second one. -/
def update (completion : Completion) : CallEnd Bool × ComputeNode :=
  if node.remotePut then
    match node.slist.fuzzySearch key with
    | none => (.returned false, node)
    | some target =>
        match (node.drainPending thread).2.tryWinForUpdate thread target with
        | (true, node) =>
            let (ret, buffer) := (node.buffers thread 0).update key value
            let (buffer, _) := updateOthers buffer (node.contexts thread).requests
            let buffer := sealed buffer
            let node := (node.setRequests thread []).setSlot thread 0 buffer
            let (_, node) := node.writeBackCurrent thread (node.slist.nodes target).dataNode
              (sizeofNode buffer.type) completion
            (.returned ret, (node.setCtx target none).setMaxDepth thread 4)
        | (false, node) =>
            match (node.slist.nodes target).ctx with
            | some holder =>
                if (node.contexts holder).type = .update then (.spins, node) else (.returned false, node)
            | none => (.spins, node)
  else
    let (ret, stage) := node.stage.update key value
    (.returned ret, { node with stage := stage })

end Calls

/-- The background thread: `update_queue.try_pop(cal)` and `calibrate`. -/
def calibrateNext (node : ComputeNode) : ComputeNode :=
  match node.updateQueue with
  | [] => node
  | entry :: rest =>
      { node with slist := node.slist.calibrate entry.newNode entry.level, updateQueue := rest }

/-- A call that returned, or a step of the background thread. -/
inductive ClientStep (source : SegmentSource) (thread : ThreadId) (node : ComputeNode) :
    ComputeNode → Prop where
  | put (key value : Bytes16) (flush : FlushDraws) (draws : PutDraws) {result : Bool} {after : ComputeNode}
      (returned : node.put source thread key.val value.val flush draws = (.returned result, after)) :
      ClientStep source thread node after
  | get (key : Bytes16) {result : Option Bytes16} {after : ComputeNode}
      (returned : node.get thread key.val = (.returned result, after)) : ClientStep source thread node after
  | update (key value : Bytes16) (completion : Completion) {result : Bool} {after : ComputeNode}
      (returned : node.update thread key.val value.val completion = (.returned result, after)) :
      ClientStep source thread node after
  | scan (key : Bytes16) (count : Nat) {total : Nat} {after : ComputeNode}
      (returned : node.scan thread key.val count = (.returned total, after)) :
      ClientStep source thread node after
  | calibrate : ClientStep source thread node node.calibrateNext

/-- The states that a lone client reaches from an initialized compute node. -/
inductive ClientRun (source : SegmentSource) (thread : ThreadId) : ComputeNode → Prop where
  | initialized (main : ThreadId) (memory : RemotePointer → LinkedNode)
      (buffers : ThreadId → Nat → LinkedNode) (heap : Fin 2 → LinkedNode) :
      ClientRun source thread (initialized source main memory buffers heap)
  | step {node after : ComputeNode} (before : ClientRun source thread node)
      (step : ClientStep source thread node after) : ClientRun source thread after

end ComputeNode

end DiStore.Cluster
