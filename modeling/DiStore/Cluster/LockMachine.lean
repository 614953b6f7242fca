import DiStore.SearchLayer.Ordered

/-!
Contract: the threads of a compute node, step by step.

Owns: the state that registered threads share while they put and update, how far
each of them is, and the steps: every CAS, every store to a context or a lock, every
push, pop and answer of a request, and every access to remote memory.

Does not own: what a winner makes of the node it fetched (`Cluster.PutWinner`). A
winner's writes, the answers it gives and the order of its remote accesses are left
open here, so that every path of `put10` to `put16` and of `update` is a run.
-/

set_option autoImplicit false

namespace DiStore.Cluster

open DiStore.Concurrency DiStore.DataLayer DiStore.SearchLayer

/-- A put or an update after `fuzzy_search` has named its node. -/
structure Operation where
  type : ConcurrencyContextType
  node : NodeId
deriving DecidableEq

/-- How far a thread is. `winner` is the context that a failed CAS found. -/
inductive Progress where
  | idle
  | draining (operation : Operation)
  | drained (operation : Operation)
  | barred (operation : Operation)
  | typed (operation : Operation)
  | holdsTarget (operation : Operation)
  | losing (operation : Operation)
  | rollingBack (operation : Operation)
  | won (operation : Operation)
  | fetching (operation : Operation)
  | serving (operation : Operation)
  | served (operation : Operation)
  | halfReleased (operation : Operation)
  | released (operation : Operation)
  | lost (operation : Operation) (winner : ThreadId)
  | spinning (operation : Operation) (winner : ThreadId)
  | passed (operation : Operation) (winner : ThreadId)
  | admitted (operation : Operation) (winner : ThreadId)
  | waiting (operation : Operation) (winner : ThreadId)
deriving DecidableEq

/-- A request that was answered: what its thread wanted, who answered it doing what
and holding which nodes, and the answer. -/
structure RequestAnswer where
  requested : Option Operation
  operation : Option Operation
  held : List NodeId
  reply : Reply
deriving DecidableEq

structure LockMachine where
  slist : SkipList
  contexts : ThreadId → ConcurrencyContext
  progress : ThreadId → Progress
  /-- what `is_done`, `succeed` and `retry` of a thread's request say -/
  replies : ThreadId → Option Reply
  remote : RemotePointer → LinkedNode
  /-- the image in a winner's buffer, until the winner writes or unlocks the node -/
  fetched : ThreadId → NodeId → Option LinkedNode
  /-- chunks a winner has allocated and not yet linked -/
  chunks : ThreadId → List RemotePointer
  allocated : List RemotePointer
  answers : List RequestAnswer

/-- The operation a thread is busy with. -/
def Progress.operation : Progress → Option Operation
  | .idle => none
  | .draining operation => some operation
  | .drained operation => some operation
  | .barred operation => some operation
  | .typed operation => some operation
  | .holdsTarget operation => some operation
  | .losing operation => some operation
  | .rollingBack operation => some operation
  | .won operation => some operation
  | .fetching operation => some operation
  | .serving operation => some operation
  | .served operation => some operation
  | .halfReleased operation => some operation
  | .released operation => some operation
  | .lost operation _ => some operation
  | .spinning operation _ => some operation
  | .passed operation _ => some operation
  | .admitted operation _ => some operation
  | .waiting operation _ => some operation

/-- `{data_node, data_node->backward}` for an insert, `{data_node}` for an update. -/
def Operation.lockedSet (operation : Operation) (slist : SkipList) : List NodeId :=
  match operation.type with
  | .insert => operation.node :: (slist.nodes operation.node).backward.toList
  | .update => [operation.node]
  | .delete => [operation.node]

/-- The nodes whose `ctx` points to the thread's context. -/
def Progress.locked (slist : SkipList) : Progress → List NodeId
  | .holdsTarget operation => [operation.node]
  | .losing operation => [operation.node]
  | .rollingBack operation => [operation.node]
  | .won operation => operation.lockedSet slist
  | .fetching operation => operation.lockedSet slist
  | .serving operation => operation.lockedSet slist
  | .served operation => operation.lockedSet slist
  | .halfReleased operation => (slist.nodes operation.node).backward.toList
  | _ => []

/-- The thread has won and stored to none of its locks yet. -/
def Progress.Won (progress : Progress) (operation : Operation) : Prop :=
  progress = .won operation ∨ progress = .fetching operation ∨ progress = .serving operation ∨
    progress = .served operation

namespace LockMachine

variable (state : LockMachine) (thread : ThreadId)

def ctx (node : NodeId) : Option ThreadId := (state.slist.nodes node).ctx

def locked : List NodeId := (state.progress thread).locked state.slist

def setProgress (progress : Progress) : LockMachine :=
  { state with progress := Function.update state.progress thread progress }

def setContext (context : ConcurrencyContext) : LockMachine :=
  { state with contexts := Function.update state.contexts thread context }

def setMaxDepth (maxDepth : Int) : LockMachine :=
  state.setContext thread { state.contexts thread with maxDepth := maxDepth }

def setCtx (node : NodeId) (ctx : Option ThreadId) : LockMachine :=
  { state with slist := state.slist.setCtx node ctx }

/-- `ctx = nullptr`. -/
def unlock (node : NodeId) : LockMachine :=
  { state.setCtx node none with
    fetched := Function.update state.fetched thread (Function.update (state.fetched thread) node none) }

/-- `thread` pops the first of its requests, leaves `rest`, and answers. -/
def answer (request : ConcurrencyRequest) (rest : List ConcurrencyRequest) (operation : Option Operation)
    (reply : Reply) : LockMachine :=
  { state.setContext thread { state.contexts thread with requests := rest } with
    replies := Function.update state.replies request.requester (some reply)
    answers := ⟨(state.progress request.requester).operation, operation,
      (state.locked thread).filter fun node => state.ctx node = some thread, reply⟩ :: state.answers }

/-- A new request enters the queue of `winner`. -/
def push (winner : ThreadId) (request : ConcurrencyRequest) : LockMachine :=
  { state.setContext winner { state.contexts winner with
      requests := (state.contexts winner).requests ++ [request] } with
    replies := Function.update state.replies request.requester none }

/-- What a winner may write to: the images of the nodes it has locked, and the chunks
it has allocated. -/
def MayWrite (address : RemotePointer) : Prop :=
  (∃ node ∈ state.locked thread, address = (state.slist.nodes node).dataNode) ∨
    address ∈ state.chunks thread

/-- A write of a whole image. Nothing is stored at `nullptr`. The copy that the winner
fetched from there is no longer what remote memory holds. -/
def write (address : RemotePointer) (image : LinkedNode) : LockMachine :=
  { state with
    remote := if address = nullptr then state.remote else Function.update state.remote address image
    fetched := Function.update state.fetched thread fun node =>
      if (state.slist.nodes node).dataNode = address then none else state.fetched thread node }

/-- One step of `thread`. -/
inductive Step : LockMachine → LockMachine → Prop where
  /-- `put`, `update`, or a retry of either -/
  | begin {state : LockMachine} (operation : Operation) (isIdle : state.progress thread = .idle)
      (known : operation.node < state.slist.count) : Step state (state.setProgress thread (.draining operation))
  /-- `drain_pending`, of a put, an update or a `get` -/
  | drain {state : LockMachine} {request : ConcurrencyRequest} {rest : List ConcurrencyRequest}
      (isBefore : state.progress thread = .idle ∨ ∃ operation, state.progress thread = .draining operation)
      (isQueue : (state.contexts thread).requests = request :: rest) :
      Step state (state.answer thread request rest none ⟨false, true⟩)
  | drained {state : LockMachine} {operation : Operation}
      (isDraining : state.progress thread = .draining operation)
      (isEmpty : (state.contexts thread).requests = []) : Step state (state.setProgress thread (.drained operation))
  /-- `max_depth = -1`, of `try_win_for_insert` only -/
  | bar {state : LockMachine} {operation : Operation} (isDrained : state.progress thread = .drained operation)
      (isInsert : operation.type = .insert) :
      Step state ((state.setMaxDepth thread (-1)).setProgress thread (.barred operation))
  /-- `type = t` -/
  | setType {state : LockMachine} {operation : Operation}
      (isReady : state.progress thread = .barred operation ∨
        state.progress thread = .drained operation ∧ operation.type = .update) :
      Step state ((state.setContext thread { state.contexts thread with type := operation.type }).setProgress thread
        (.typed operation))
  | winTarget {state : LockMachine} {operation : Operation} (isTyped : state.progress thread = .typed operation)
      (isFree : state.ctx operation.node = none) :
      Step state ((state.setCtx operation.node (some thread)).setProgress thread
        (if operation.type = .insert then .holdsTarget operation else .won operation))
  | loseTarget {state : LockMachine} {operation : Operation} {winner : ThreadId}
      (isTyped : state.progress thread = .typed operation) (isTaken : state.ctx operation.node = some winner) :
      Step state (state.setProgress thread (.lost operation winner))
  | winPred {state : LockMachine} {operation : Operation} {pred : NodeId}
      (holds : state.progress thread = .holdsTarget operation)
      (isPred : (state.slist.nodes operation.node).backward = some pred) (isFree : state.ctx pred = none) :
      Step state ((state.setCtx pred (some thread)).setProgress thread (.won operation))
  | losePred {state : LockMachine} {operation : Operation} {pred : NodeId} {winner : ThreadId}
      (holds : state.progress thread = .holdsTarget operation)
      (isPred : (state.slist.nodes operation.node).backward = some pred) (isTaken : state.ctx pred = some winner) :
      Step state (state.setProgress thread (.losing operation))
  /-- `max_depth = 0` -/
  | shut {state : LockMachine} {operation : Operation} (isLosing : state.progress thread = .losing operation) :
      Step state ((state.setMaxDepth thread 0).setProgress thread (.rollingBack operation))
  | rollBack {state : LockMachine} {operation : Operation}
      (isRolling : state.progress thread = .rollingBack operation) :
      Step state ((state.unlock thread operation.node).setProgress thread .idle)
  /-- `max_depth = 4`: the threads that lost may submit requests -/
  | openWindow {state : LockMachine} {operation : Operation} (isWon : state.progress thread = .won operation) :
      Step state ((state.setMaxDepth thread 4).setProgress thread (.fetching operation))
  | fetch {state : LockMachine} {operation : Operation} {node : NodeId}
      (isFetching : state.progress thread = .fetching operation) (isLocked : node ∈ state.locked thread) :
      Step state { state with
        fetched := Function.update state.fetched thread (Function.update (state.fetched thread) node
          (some (state.remote (state.slist.nodes node).dataNode))) }
  /-- `max_depth = -1` -/
  | closeWindow {state : LockMachine} {operation : Operation}
      (isFetching : state.progress thread = .fetching operation) :
      Step state ((state.setMaxDepth thread (-1)).setProgress thread (.serving operation))
  | serve {state : LockMachine} {operation : Operation} {request : ConcurrencyRequest}
      {rest : List ConcurrencyRequest} (reply : Reply) (isServing : state.progress thread = .serving operation)
      (isQueue : (state.contexts thread).requests = request :: rest) :
      Step state (state.answer thread request rest (some operation) reply)
  /-- `help_others` finds the node full; another pass follows -/
  | pushBack {state : LockMachine} {operation : Operation} {request : ConcurrencyRequest}
      {rest : List ConcurrencyRequest} (isServing : state.progress thread = .serving operation)
      (isInsert : operation.type = .insert) (isQueue : (state.contexts thread).requests = request :: rest) :
      Step state (state.setContext thread { state.contexts thread with requests := rest ++ [request] })
  /-- the last pass finds the queue empty -/
  | finish {state : LockMachine} {operation : Operation} (isServing : state.progress thread = .serving operation)
      (isEmpty : (state.contexts thread).requests = []) : Step state (state.setProgress thread (.served operation))
  /-- the last pass finds the node full -/
  | giveUpServing {state : LockMachine} {operation : Operation} {request : ConcurrencyRequest}
      {rest : List ConcurrencyRequest} (isServing : state.progress thread = .serving operation)
      (isInsert : operation.type = .insert) (isQueue : (state.contexts thread).requests = request :: rest) :
      Step state ((state.setContext thread { state.contexts thread with requests := rest ++ [request] }).setProgress
        thread (.served operation))
  | allocate {state : LockMachine} {operation : Operation} (chunk : RemotePointer)
      (isServed : state.progress thread = .served operation) (isNew : chunk ∉ state.allocated)
      (notNull : chunk ≠ nullptr) :
      Step state { state with
        chunks := Function.update state.chunks thread (chunk :: state.chunks thread)
        allocated := chunk :: state.allocated }
  /-- `write_back_current`, or one write of a batch -/
  | write {state : LockMachine} {operation : Operation} {address : RemotePointer} (image : LinkedNode)
      (isServed : state.progress thread = .served operation) (mayWrite : state.MayWrite thread address) :
      Step state (state.write thread address image)
  /-- `data_node->data_node = r`, `nullptr` after a failed batch -/
  | relocate {state : LockMachine} {operation : Operation} {chunk : RemotePointer}
      (isServed : state.progress thread = .served operation) (isInsert : operation.type = .insert)
      (isChunk : chunk ∈ state.chunks thread ∨ chunk = nullptr) :
      Step state { state with
        slist := state.slist.setDataNode operation.node chunk
        chunks := Function.update state.chunks thread ((state.chunks thread).erase chunk)
        fetched := Function.update state.fetched thread
          (Function.update (state.fetched thread) operation.node none) }
  /-- `async_update` -/
  | link {state : LockMachine} {operation : Operation} {chunk : RemotePointer} (anchor : Str)
      (type : LinkedNodeType) (isServed : state.progress thread = .served operation)
      (isInsert : operation.type = .insert) (isChunk : chunk ∈ state.chunks thread) :
      Step state { state with
        slist := (state.slist.linkBehind operation.node anchor type chunk).2
        chunks := Function.update state.chunks thread ((state.chunks thread).erase chunk) }
  /-- the first release: `data_node->ctx = nullptr` -/
  | releaseTarget {state : LockMachine} {operation : Operation}
      (isServed : state.progress thread = .served operation) :
      Step state ((state.unlock thread operation.node).setProgress thread
        (if operation.type = .insert then .halfReleased operation else .released operation))
  /-- `data_node->backward->ctx = nullptr` -/
  | releasePred {state : LockMachine} {operation : Operation} {pred : NodeId}
      (isHalf : state.progress thread = .halfReleased operation)
      (isPred : (state.slist.nodes operation.node).backward = some pred) :
      Step state ((state.unlock thread pred).setProgress thread (.released operation))
  /-- `max_depth = 4`, and the call returns -/
  | reset {state : LockMachine} {operation : Operation}
      (isReleased : state.progress thread = .released operation) :
      Step state ((state.setMaxDepth thread 4).setProgress thread .idle)
  /-- the winner does something else: retry, or `false` from an update -/
  | otherType {state : LockMachine} {operation : Operation} {winner : ThreadId}
      (isLost : state.progress thread = .lost operation winner)
      (differs : (state.contexts winner).type ≠ operation.type) : Step state (state.setProgress thread .idle)
  | contend {state : LockMachine} {operation : Operation} {winner : ThreadId}
      (isLost : state.progress thread = .lost operation winner)
      (same : (state.contexts winner).type = operation.type) :
      Step state (state.setProgress thread (.spinning operation winner))
  /-- `while (max_depth == -1)` ends -/
  | leaveLoop {state : LockMachine} {operation : Operation} {winner : ThreadId}
      (isSpinning : state.progress thread = .spinning operation winner)
      (isOpen : (state.contexts winner).maxDepth ≠ -1) :
      Step state (state.setProgress thread (.passed operation winner))
  /-- `fetch_sub(1)` returns a positive depth -/
  | grant {state : LockMachine} {operation : Operation} {winner : ThreadId}
      (isPassed : state.progress thread = .passed operation winner)
      (positive : 0 < (state.contexts winner).maxDepth) :
      Step state ((state.setMaxDepth winner ((state.contexts winner).maxDepth - 1)).setProgress thread
        (.admitted operation winner))
  | refuse {state : LockMachine} {operation : Operation} {winner : ThreadId}
      (isPassed : state.progress thread = .passed operation winner)
      (notPositive : (state.contexts winner).maxDepth ≤ 0) :
      Step state ((state.setMaxDepth winner ((state.contexts winner).maxDepth - 1)).setProgress thread .idle)
  | enqueue {state : LockMachine} {operation : Operation} {winner : ThreadId} (tag content : Bytes16)
      (isAdmitted : state.progress thread = .admitted operation winner) :
      Step state ((state.push winner ⟨thread, tag, content⟩).setProgress thread (.waiting operation winner))
  /-- `while (!is_done)` ends: return or retry -/
  | leave {state : LockMachine} {operation : Operation} {winner : ThreadId} {reply : Reply}
      (isWaiting : state.progress thread = .waiting operation winner)
      (isDone : state.replies thread = some reply) : Step state (state.setProgress thread .idle)

/-! ### Fields -/

variable {state : LockMachine} {thread : ThreadId}

@[simp] theorem progress_setProgress (progress : Progress) :
    (state.setProgress thread progress).progress = Function.update state.progress thread progress := rfl

@[simp] theorem slist_setProgress (progress : Progress) : (state.setProgress thread progress).slist = state.slist :=
  rfl

theorem backward_setCtx (slist : SkipList) (node other : NodeId) (ctx : Option ThreadId) :
    ((slist.setCtx node ctx).nodes other).backward = (slist.nodes other).backward := by
  by_cases same : other = node
  · rw [same]
    simp [SkipList.setCtx, SkipList.setNode]
  · simp [SkipList.setCtx, SkipList.setNode, Function.update_of_ne same]

theorem dataNode_setCtx (slist : SkipList) (node other : NodeId) (ctx : Option ThreadId) :
    ((slist.setCtx node ctx).nodes other).dataNode = (slist.nodes other).dataNode := by
  by_cases same : other = node
  · rw [same]
    simp [SkipList.setCtx, SkipList.setNode]
  · simp [SkipList.setCtx, SkipList.setNode, Function.update_of_ne same]

theorem ctx_setCtx (node other : NodeId) (ctx : Option ThreadId) :
    (state.setCtx node ctx).ctx other = if other = node then ctx else state.ctx other := by
  unfold LockMachine.ctx LockMachine.setCtx
  by_cases same : other = node
  · rw [if_pos same, same]
    simp [SkipList.setCtx, SkipList.setNode]
  · rw [if_neg same]
    simp [SkipList.setCtx, SkipList.setNode, Function.update_of_ne same]

theorem backward_setDataNode (slist : SkipList) (node other : NodeId) (remote : RemotePointer) :
    ((slist.setDataNode node remote).nodes other).backward = (slist.nodes other).backward := by
  by_cases same : other = node
  · rw [same]
    simp [SkipList.setDataNode, SkipList.setNode]
  · simp [SkipList.setDataNode, SkipList.setNode, Function.update_of_ne same]

theorem nodeCtx_setDataNode (slist : SkipList) (node other : NodeId) (remote : RemotePointer) :
    ((slist.setDataNode node remote).nodes other).ctx = (slist.nodes other).ctx := by
  by_cases same : other = node
  · rw [same]
    simp [SkipList.setDataNode, SkipList.setNode]
  · simp [SkipList.setDataNode, SkipList.setNode, Function.update_of_ne same]

theorem dataNode_setDataNode (slist : SkipList) (node other : NodeId) (remote : RemotePointer) :
    ((slist.setDataNode node remote).nodes other).dataNode =
      if other = node then remote else (slist.nodes other).dataNode := by
  by_cases same : other = node
  · rw [if_pos same, same]
    simp [SkipList.setDataNode, SkipList.setNode]
  · rw [if_neg same]
    simp [SkipList.setDataNode, SkipList.setNode, Function.update_of_ne same]

end LockMachine

/-- What a thread has locked depends on the backward pointer of its own node only. -/
theorem Progress.locked_congr {before after : SkipList} {progress : Progress}
    (same : ∀ operation, progress.operation = some operation →
      (after.nodes operation.node).backward = (before.nodes operation.node).backward) :
    progress.locked after = progress.locked before := by
  cases progress with
  | won operation => simp only [locked, Operation.lockedSet, same operation rfl]
  | fetching operation => simp only [locked, Operation.lockedSet, same operation rfl]
  | serving operation => simp only [locked, Operation.lockedSet, same operation rfl]
  | served operation => simp only [locked, Operation.lockedSet, same operation rfl]
  | halfReleased operation => simp only [locked, same operation rfl]
  | _ => rfl

end DiStore.Cluster
