import DiStore.Cluster.PutWinner

/-!
Contract: range queries over remote memory.

Owns: `LinkedNode::scan`, `fetch_two_into_buffer`, `fetch_two_async`,
`poll_fetch_two_async` and `ComputeNode::scan` with its loop over pairs of nodes.

Does not own: writers that run at the same time. A posted read delivers its bytes
before it is polled; nothing else uses the thread's buffer in between.
-/

set_option autoImplicit false

namespace DiStore.DataLayer.LinkedNode

variable (node : LinkedNode) (key : Str) (ct : Nat)

/-- One slot of the loop of `scan`: how many values were appended to `ret`, and `ret`. -/
def scanSlot (found : Nat × List Bytes16) (index : Nat) : Nat × List Bytes16 :=
  if 0 < ct - found.1 ∧ key ≤ (node.pairs index).key.val then
    (found.1 + 1, found.2 ++ [(node.pairs index).value])
  else found

/-- `scan`. -/
def scan (ret : List Bytes16) : Nat × List Bytes16 :=
  (List.range node.next).foldl (node.scanSlot key ct) (0, ret)

/-- The loop over any slots, from any count and result so far. -/
theorem foldl_scanSlot (places : List Nat) (found : Nat × List Bytes16) (within : found.1 ≤ ct) :
    places.foldl (node.scanSlot key ct) found =
      (min ct (found.1 + ((places.map node.pairs).filter fun pair => key ≤ pair.key.val).length),
        found.2 ++ (((places.map node.pairs).filter fun pair => key ≤ pair.key.val).take
          (ct - found.1)).map KV.value) := by
  induction places generalizing found with
  | nil =>
      show found = (min ct (found.1 + 0), found.2 ++ (List.take (ct - found.1) []).map KV.value)
      rw [List.take_nil, List.map_nil, List.append_nil, Nat.add_zero, min_eq_right within]
  | cons index places inductionHypothesis =>
      rw [List.foldl_cons, List.map_cons]
      unfold scanSlot
      by_cases qualifies : key ≤ (node.pairs index).key.val
      · rw [List.filter_cons_of_pos (p := fun pair : KV => decide (key ≤ pair.key.val))
          (decide_eq_true qualifies), List.length_cons]
        by_cases room : 0 < ct - found.1
        · have more : ct - found.1 = (ct - (found.1 + 1)) + 1 := by omega
          rw [if_pos ⟨room, qualifies⟩]
          show places.foldl (node.scanSlot key ct) (found.1 + 1, _) = _
          rw [inductionHypothesis (found.1 + 1, _) (by show found.1 + 1 ≤ ct; omega), more, List.take_succ_cons,
            List.map_cons, List.append_assoc]
          show (min ct (found.1 + 1 + _), _) = _
          rw [Nat.add_assoc, Nat.add_comm 1]
          rfl
        · have full : ct - found.1 = 0 := Nat.eq_zero_of_not_pos room
          rw [if_neg (fun both => room both.1)]
          show places.foldl (node.scanSlot key ct) found = _
          rw [inductionHypothesis found within, full, List.take_zero, List.take_zero, min_eq_left (by omega),
            min_eq_left (by omega)]
      · rw [List.filter_cons_of_neg (p := fun pair : KV => decide (key ≤ pair.key.val))
          (by simpa using qualifies), if_neg (fun both => qualifies both.2)]
        exact inductionHypothesis found within

end DiStore.DataLayer.LinkedNode

namespace DiStore.Cluster

open DiStore.Concurrency DiStore.DataLayer DiStore.Memory DiStore.SearchLayer

/-- How `ComputeNode::scan` ends: it returns, it polls through a null `RDMAContext`, or
it polls for a completion that no posted request will generate. -/
inductive ScanEnd where
  | returned (total : Nat)
  | nullContext
  | stuck
deriving DecidableEq

/-- The local variables of the loop. Of `rdma` it matters whether it is null, and how many
completions its posted requests have yet to generate. -/
structure ScanState where
  node : ComputeNode
  l : Fin 2 → LinkedNode
  r : Fin 2 → LinkedNode
  flip : Fin 2
  rdma : Option Nat
  total : Nat
  ret : List Bytes16

namespace ScanState

variable (state : ScanState) (thread : ThreadId) (key : Str) (count : Nat)

/-- `fetch_two_async`: both work requests name the scatter entry of the left node, so
both reads go to the first slot and have the size of the left node. Only the last one
is signalled. -/
def fetchTwoAsync (left right : NodeId) : ScanState :=
  let leftNode := state.node.slist.nodes left
  let rightNode := state.node.slist.nodes right
  { state with
    node := (state.node.read thread leftNode.dataNode (sizeofNode leftNode.type) 0).read thread
      rightNode.dataNode (sizeofNode leftNode.type) 0
    rdma := some 1 }

/-- `poll_fetch_two_async(rdma, r[flip], l[flip])`: the first slot is copied to `r`, the
second to `l`. -/
def pollFetchTwoAsync : Except ScanEnd ScanState :=
  match state.rdma with
  | none => .error .nullContext
  | some 0 => .error .stuck
  | some (pending + 1) => .ok
      { state with
        r := Function.update state.r state.flip (state.node.buffers thread 0)
        l := Function.update state.l state.flip (state.node.buffers thread 1)
        rdma := some pending }

/-- `total += r[flip].scan(key, count - total, ret)`, then the same for `l[flip]`. -/
def scanBoth : ScanState :=
  let (fromRight, ret) := (state.r state.flip).scan key (count - state.total) state.ret
  let total := state.total + fromRight
  let (fromLeft, ret) := (state.l state.flip).scan key (count - total) ret
  { state with total := total + fromLeft, ret := ret }

end ScanState

variable (thread : ThreadId) (key : Str) (count : Nat)

/-- The `do` loop; `second` is the last node fetched. The bound is the number of nodes,
which the loop never reaches. -/
def scanLoop : Nat → NodeId → ScanState → ScanEnd × ComputeNode
  | 0, _, state => (.stuck, state.node)
  | fuel + 1, second, state =>
      match state.node.slist.forward 0 second with
      | none =>
          match state.pollFetchTwoAsync thread with
          | .error failure => (failure, state.node)
          | .ok state =>
              let state := state.scanBoth key count
              (.returned state.total, state.node)
      | some first =>
          match state.node.slist.forward 0 first with
          | none =>
              let state := state.scanBoth key count
              -- what the last node adds to `ret` is not added to `total`
              (.returned state.total, state.node.fetchAs thread (state.node.slist.nodes first).dataNode)
          | some second =>
              let state := (state.fetchTwoAsync thread first second).scanBoth key count
              let state := { state with flip := 1 - state.flip }
              match state.pollFetchTwoAsync thread with
              | .error failure => (failure, state.node)
              | .ok state =>
                  if state.total < count then scanLoop fuel second state
                  else (.returned state.total, state.node)

/-- `fetch_two_into_buffer(first, second, &l[0], &r[0])` and the state before the loop. The
other two entries are written before they are read. -/
def scanStart (node : ComputeNode) (first second : NodeId) : ScanState :=
  let left := node.slist.nodes first
  let right := node.slist.nodes second
  let node := (node.read thread right.dataNode (sizeofNode right.type) 1).read thread left.dataNode
    (sizeofNode left.type) 0
  { node := node
    l := fun _ => node.buffers thread 0
    r := fun _ => node.buffers thread 1
    flip := 0
    rdma := none
    total := 0
    ret := [] }

/-- `ComputeNode::scan`. -/
def ComputeNode.scan (node : ComputeNode) : ScanEnd × ComputeNode :=
  match node.slist.fuzzySearch key with
  | none => (.returned 0, node)
  | some first =>
      let single :=
        let node := node.fetchAs thread (node.slist.nodes first).dataNode
        (ScanEnd.returned ((node.buffers thread 0).scan key count []).1, node)
      match node.slist.forward 0 first with
      | none => single
      | some second =>
          if key ≤ (node.slist.nodes second).anchor then
            scanLoop thread key count node.slist.count second (scanStart thread node first second)
          else single

end DiStore.Cluster
