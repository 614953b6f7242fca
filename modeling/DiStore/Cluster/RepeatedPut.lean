import DiStore.Cluster.PutRun
import DiStore.Cluster.RemoteUpdate

/-!
Contract: a put of a key that its data node already stores.

Owns: what such a put is to leave alone (`Unchanged`), and exactly when it does after a run of
puts.

`store` tests for room before it tests for the key. A full node refuses its own keys, and the put
takes the refusal for a record that needs a larger chunk, or a second node.
-/

set_option autoImplicit false

namespace DiStore

namespace DataLayer.LinkedNode

variable [Digest] {node : LinkedNode} {key : Bytes16}

/-- A slot holds the key as `store` leaves it there, with its fingerprint. -/
def Stores (node : LinkedNode) (key : Bytes16) : Prop :=
  ∃ index < node.next, node.fingerprints index = fingerprint key.val ∧ (node.pairs index).key = key

theorem stores_iff_find : node.Stores key ↔ (node.find key.val).isSome := by
  rw [find_isSome_eq]
  constructor
  · intro stored
    obtain ⟨index, bound, isMatch⟩ := stored
    rw [Option.isSome_iff_ne_none]
    intro absent
    have passes := findIndex_eq_none_iff.mp absent index bound
    rw [matchesAt_iff.mpr isMatch] at passes
    cases passes
  · intro found
    obtain ⟨index, isIndex⟩ := Option.isSome_iff_exists.mp found
    obtain ⟨bound, isMatch, _⟩ := findIndex_eq_some_iff.mp isIndex
    exact ⟨index, bound, matchesAt_iff.mp isMatch⟩

/-- With room left, a key that is stored is not stored again. -/
theorem store_stored {capacity : Nat} (room : node.next < capacity) (stored : node.Stores key) (value : Str) :
    node.store capacity key.val value = (true, node) := by
  unfold store
  rw [if_pos room, if_pos (stores_iff_find.mp stored)]

theorem stores_of_entries {left right : LinkedNode} (same : left.entries = right.entries) :
    left.Stores key ↔ right.Stores key := by
  rw [stores_iff_find, stores_iff_find, find_of_entries same]

end DataLayer.LinkedNode

namespace Cluster.ComputeNode

open DiStore.Concurrency DiStore.DataLayer DiStore.Memory DiStore.SearchLayer

/-- No new search node, the same bottom level, and every node's chunk, type and records as
before. -/
structure Unchanged (before after : ComputeNode) : Prop where
  count : after.slist.count = before.slist.count
  chain : after.chain = before.chain
  dataNode : ∀ id, (after.slist.nodes id).dataNode = (before.slist.nodes id).dataNode
  type : ∀ id, (after.slist.nodes id).type = (before.slist.nodes id).type
  records : ∀ id, (after.imageOf id).records = (before.imageOf id).records

variable {source : SegmentSource} {node before after : ComputeNode} {thread : ThreadId} {target : NodeId}

/-- Locks change nothing that a client sees. -/
theorem unchanged_of_moved (moved : Moved before.slist after.slist target
      (before.slist.nodes target).dataNode (before.slist.nodes target).type)
    (remote : after.remote = before.remote) : Unchanged before after := by
  have dataNode : ∀ id, (after.slist.nodes id).dataNode = (before.slist.nodes id).dataNode := by
    intro id
    rw [moved.dataNode]
    split
    next isTarget => rw [isTarget]
    next => rfl
  have sameForward : after.slist.forward 0 = before.slist.forward 0 := funext (moved.forward 0)
  constructor
  case count => exact moved.count
  case chain =>
    unfold chain SkipList.levelChain
    rw [sameForward, moved.count]
  case dataNode => exact dataNode
  case type =>
    intro id
    rw [moved.type]
    split
    next isTarget => rw [isTarget]
    next => rfl
  case records =>
    intro id
    unfold imageOf
    rw [dataNode, remote]

variable [Digest] {key : Bytes16} {flush : FlushDraws} {draws : PutDraws}

/-- A winner that finds its key in a node with room writes the node back as it was. -/
theorem Settled.put_stored (settled : Settled source node) (idle : Idle node)
    (found : node.slist.fuzzySearch key.val = some target) (notHead : target ≠ SkipList.head)
    (stored : (node.imageOf target).Stores key) (value : Str) (done : AllWritesDone flush draws)
    (room : (node.imageOf target).next < (node.slist.nodes target).type.capacity) :
    ∃ after, node.put source thread key.val value flush draws = (.returned true, after) ∧
      Unchanged node after := by
  have known := idle.closed.fuzzySearch_lt found
  have isData := (settled.placed target known notHead).isData
  obtain ⟨won, wonInsert, wonSettled, isPut⟩ := settled.put_won idle thread found notHead value flush draws
  obtain ⟨sameCount, sameData, sameType, sameImage⟩ := wonInsert.same
  have entries : (won.fetchedReal thread target).entries = (node.imageOf target).entries := by
    rw [← sameImage]
    apply fetchedReal_entries (sameType ▸ isData)
    rw [sameImage, sameType]
    exact room.le
  have fetchedRoom : (won.fetchedReal thread target).next < (node.slist.nodes target).type.capacity := by
    rw [next_of_entries entries]
    exact room
  have fetchedStores := (LinkedNode.stores_of_entries entries).mpr stored
  obtain ⟨after, returned, _, moved, remote⟩ := @Settled.inPlace source won thread target _ _ key.val value
    draws wonSettled (sameCount ▸ known) notHead sameType wonInsert.requests done.write (planOf _) fetchedRoom
  have isFetched : won.fetchedReal thread target =
      LinkedNode.overlay (sizeofNode (node.slist.nodes target).type) (won.imageOf target)
        (won.buffers thread 1) := by
    unfold fetchedReal imageOf
    rw [sameType]
  have sameRemote : after.remote = node.remote := by
    rw [remote, LinkedNode.store_stored fetchedRoom fetchedStores value, isFetched,
      LinkedNode.overlay_overlay, LinkedNode.overlay_self]
    unfold imageOf
    rw [Function.update_eq_self, wonInsert.remote]
  rw [sameData] at moved
  rw [isPut, returned]
  exact ⟨after, rfl, unchanged_of_moved (wonInsert.moved.trans moved) sameRemote⟩

/-- After the puts of one client whose writes are all done, a put of a stored key changes
nothing exactly if the node that covers the key has room for another record. -/
theorem put_stored_iff (run : PutRun source thread node) (flushed : node.remotePut = true)
    (found : node.slist.fuzzySearch key.val = some target) (notHead : target ≠ SkipList.head)
    (stored : (node.imageOf target).Stores key) (value : Str) (done : AllWritesDone flush draws) :
    (∃ after, node.put source thread key.val value flush draws = (.returned true, after) ∧
        Unchanged node after) ↔
      (node.imageOf target).next < (node.slist.nodes target).type.capacity := by
  have idle := run.clientRun.idle
  have settled := run.settled flushed
  constructor
  · intro unchanged
    obtain ⟨after, isPut, same⟩ := unchanged
    by_contra full
    obtain ⟨other, isOther, _, fresh⟩ := @Settled.put source node thread target _ key.val value draws settled
      idle found notHead flush done
    rw [isPut] at isOther
    cases isOther
    -- a full node is moved to a chunk that was in reserve, and its own was not
    have relocated := fresh (not_lt.mp full)
    rw [same.dataNode] at relocated
    exact (settled.placed target (idle.closed.fuzzySearch_lt found) notHead).taken relocated
  · exact settled.put_stored idle found notHead stored value done

end Cluster.ComputeNode

end DiStore

/-! ### Twelve and thirteen puts -/

namespace DiStore.Cluster.ComputeNode

open DiStore.Concurrency DiStore.DataLayer DiStore.Memory DiStore.SearchLayer

attribute [local instance] Digests.source

/-- Twelve puts, the last of which flushes: its node has eleven records of twelve. -/
def putTwelve : Option ComputeNode :=
  putAll (.memoryNode 0) 0 drawsDone writesDone
    (initialized (.memoryNode 0) 0 (fun _ => .zeroed) (fun _ _ => .zeroed) fun _ => .zeroed)
    (byteRecords 97 11 ++ [(.fill 120, .fill 2)])

theorem allDone : AllWritesDone drawsDone writesDone := ⟨rfl, rfl, rfl, rfl⟩

/-- A run of these puts. -/
theorem putAll_run {records : List (Bytes16 × Bytes16)} {node : ComputeNode}
    (reached : putAll (.memoryNode 0) 0 drawsDone writesDone
      (initialized (.memoryNode 0) 0 (fun _ => .zeroed) (fun _ _ => .zeroed) fun _ => .zeroed) records =
        some node) : PutRun (.memoryNode 0) 0 node :=
  (PutRun.initialized 0 (fun _ => .zeroed) (fun _ _ => .zeroed) fun _ => .zeroed).putAll allDone reached

theorem twelfth_put_repeated :
    ∃ node, putTwelve = some node ∧
      ∃ after, node.put (.memoryNode 0) 0 (Bytes16.fill 120).val (Bytes16.fill 9).val drawsDone writesDone =
          (.returned true, after) ∧ Unchanged node after := by
  have facts : putTwelve.map (fun node =>
      decide (node.remotePut = true ∧ node.slist.fuzzySearch (Bytes16.fill 120).val = some 2 ∧
        ((node.imageOf 2).find (Bytes16.fill 120).val).isSome ∧
          (node.imageOf 2).next < (node.slist.nodes 2).type.capacity)) = some true := by decide +kernel
  obtain ⟨node, reached, isNode⟩ := Option.map_eq_some_iff.mp facts
  obtain ⟨flushed, found, isStored, room⟩ := of_decide_eq_true isNode
  exact ⟨node, reached, (put_stored_iff (putAll_run reached) flushed found (by decide)
    (LinkedNode.stores_iff_find.mpr isStored) (Bytes16.fill 9).val allDone).mpr room⟩

/-- The thirteenth put fills the node, and putting its key again moves the node. -/
theorem thirteenth_put_relocates :
    ¬ ∀ node, PutRun (.memoryNode 0) 0 node → node.remotePut = true → ∀ (key : Bytes16) (target : NodeId),
      node.slist.fuzzySearch key.val = some target → target ≠ SkipList.head →
        (node.imageOf target).Stores key → ∀ (value : Str) (flush : FlushDraws) (draws : PutDraws),
          AllWritesDone flush draws →
            ∃ after, node.put (.memoryNode 0) 0 key.val value flush draws = (.returned true, after) ∧
              Unchanged node after := by
  intro unchanged
  have facts : putThirteen.map (fun node =>
      decide (node.remotePut = true ∧ node.slist.fuzzySearch (Bytes16.fill 121).val = some 2 ∧
        ((node.imageOf 2).find (Bytes16.fill 121).val).isSome ∧
          ((node.put (.memoryNode 0) 0 (Bytes16.fill 121).val (Bytes16.fill 3).val drawsDone
            writesDone).2.slist.nodes 2).dataNode ≠ (node.slist.nodes 2).dataNode)) = some true := by
    decide +kernel
  obtain ⟨node, reached, isNode⟩ := Option.map_eq_some_iff.mp facts
  obtain ⟨flushed, found, isStored, relocated⟩ := of_decide_eq_true isNode
  obtain ⟨after, isPut, same⟩ := unchanged node (putAll_run reached) flushed (.fill 121) 2 found (by decide)
    (LinkedNode.stores_iff_find.mpr isStored) (Bytes16.fill 3).val drawsDone writesDone allDone
  rw [isPut] at relocated
  exact relocated (same.dataNode 2)

end DiStore.Cluster.ComputeNode
