import DiStore.Cluster.LocalStage
import DiStore.Memory.ComputeNodeAllocator
import DiStore.SearchLayer.SkipList

/-!
Contract: the state of a compute node and its access to remote memory.

Owns: `ComputeNode`, `initialize`, the transfers between a thread's RDMA buffer and
remote memory (`fetch_as`, `write_to`, `write_back_current`, batched work
requests), and `ComputeNode::allocate`.

Remote memory is addressed by chunk: `remote p` is the node image that starts at
`p`. A transfer moves exactly the bytes it names. A thread's 8192-byte buffer is a
sequence of `LinkedNode16` slots; slot `i` starts at byte `i * sizeof(LinkedNode16)`.
-/

set_option autoImplicit false

namespace DiStore.Cluster

open DiStore.Concurrency DiStore.DataLayer DiStore.Memory DiStore.SearchLayer

/-- What `poll_one_completion` finds for a write: `done`, or a failed poll after a
write that was or was not performed. -/
inductive Completion where
  | done
  | failed (performed : Bool)
deriving DecidableEq

def Completion.performed : Completion → Bool
  | .done => true
  | .failed performed => performed

/-- `CalibrateContext`. -/
structure CalibrateContext where
  level : Nat
  newNode : NodeId
deriving DecidableEq

structure ComputeNode where
  slist : SkipList
  heap : RemoteHeap
  remote : RemotePointer → LinkedNode
  /-- `common_buffer` of each registered thread -/
  buffers : ThreadId → Nat → LinkedNode
  /-- `cctx` -/
  contexts : ThreadId → ConcurrencyContext
  updateQueue : List CalibrateContext
  remotePut : Bool
  stage : LocalStage
  /-- the `static LinkedNode12 remote` of `quick_put` -/
  flushNode : LinkedNode
  /-- every chunk obtained from `allocate`, with the size asked for -/
  allocations : List (RemotePointer × Nat)
  /-- every write posted, with its size -/
  posted : List (RemotePointer × Nat)

namespace ComputeNode

variable (node : ComputeNode) (source : SegmentSource) (thread : ThreadId)

/-- `ComputeNode::allocate`; the pointer of a failed allocation is `nullptr`. -/
def allocate (size : Nat) : RemotePointer × ComputeNode :=
  let (chunk, heap) := node.heap.allocate source thread size
  let remote := chunk.getD nullptr
  (remote, { node with heap := heap, allocations := (remote, size) :: node.allocations })

def setSlot (slot : Nat) (content : LinkedNode) : ComputeNode :=
  { node with
    buffers := Function.update node.buffers thread
      (Function.update (node.buffers thread) slot content) }

/-- `post_read`: the first `size` bytes at `remote` into a slot. -/
def read (remote : RemotePointer) (size slot : Nat) : ComputeNode :=
  node.setSlot thread slot
    (LinkedNode.overlay size (node.remote remote) (node.buffers thread slot))

/-- One posted write: the first `size` bytes of a slot to `remote`. -/
def write (remote : RemotePointer) (size slot : Nat) (completion : Completion) : ComputeNode :=
  { node with
    remote :=
      if completion.performed then
        Function.update node.remote remote
          (LinkedNode.overlay size (node.buffers thread slot) (node.remote remote))
      else node.remote
    posted := (remote, size) :: node.posted }

/-- `write_to` with content: the content is copied to the start of the buffer first. -/
def writeTo (remote : RemotePointer) (size : Nat) (content : LinkedNode) (completion : Completion) :
    Bool × ComputeNode :=
  let node := node.setSlot thread 0 (LinkedNode.overlay size content (node.buffers thread 0))
  (completion = .done, node.write thread remote size 0 completion)

/-- `write_back_current`: from the second slot. -/
def writeBackCurrent (remote : RemotePointer) (size : Nat) (completion : Completion) :
    Bool × ComputeNode :=
  (completion = .done, node.write thread remote size 1 completion)

/-- `fetch_as<LinkedNode16 *>(p, sizeof(LinkedNode16))`, to the start of the buffer. -/
def fetchAs (remote : RemotePointer) : ComputeNode :=
  node.read thread remote (sizeofNode .type16) 0

def setSlist (slist : SkipList) : ComputeNode := { node with slist := slist }

/-- The state after `initialize` by a main thread: `memory` is what remote memory
held before, `buffers` what the RDMA buffers held, `heap` what the two local nodes
were constructed over. -/
def initialized (memory : RemotePointer → LinkedNode) (buffers : ThreadId → Nat → LinkedNode)
    (heap : Fin 2 → LinkedNode) : ComputeNode :=
  let (chunk, remoteHeap) := RemoteHeap.empty.allocate source thread (sizeofNode .typeHead)
  let fakeHead := chunk.getD nullptr
  { slist := .empty fakeHead
    heap := remoteHeap
    remote := memory
    buffers := buffers
    contexts := fun _ => .initial
    updateQueue := []
    remotePut := false
    stage := .initial heap
    flushNode := .fresh .type12 .zeroed
    allocations := [(fakeHead, sizeofNode .typeHead)]
    posted := [] }

end ComputeNode

end DiStore.Cluster
