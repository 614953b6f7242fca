import DiStore.Cluster.Accesses
import DiStore.Cluster.ScanCount

/-!
Contract: completions on the contexts of a thread.

Owns: that every transfer, `get`, `update` and `put` waits for exactly what it posted, and
when a scan does.

Does not own: posts and polls that fail.
-/

set_option autoImplicit false

namespace DiStore.Cluster

open DiStore.Concurrency DiStore.DataLayer DiStore.Library DiStore.Memory DiStore.SearchLayer

theorem Accesses.settles_single (remote : RemotePointer) : Settles (Accesses.single remote) := settles_request _ _

namespace HelperCall

theorem settles_fetchTwo (left right : RemotePointer) : Settles (fetchTwo left right).accesses :=
  (settles_request (getRdma left) left).posted

theorem settles_fetchTwoParallel (left right : RemotePointer) : Settles (fetchTwoParallel left right).accesses := by
  apply settles_parallel
  intro same
  cases congrArg RdmaContext.parallel same

/-- The asynchronous fetch and the poll on its context. -/
theorem settles_fetchTwoAsync (left right : RemotePointer) :
    Settles ((fetchTwoAsync left right).accesses ++ (pollFetchTwoAsync (some (getRdma left))).accesses) :=
  (settles_request (getRdma left) right).unsignaled

theorem settles_writeBackMorphed (pred r : RemotePointer) : Settles (writeBackMorphed pred r).accesses :=
  (settles_request (getRdma r) r).unsignaled

theorem settles_writeBackSplitted (pred l r : RemotePointer) : Settles (writeBackSplitted pred l r).accesses :=
  (settles_request (getRdma l) r).unsignaled.unsignaled

end HelperCall

namespace ComputeNode

section Attempts

variable (node : ComputeNode) (source : SegmentSource) (thread : ThreadId) (target : NodeId)
variable (key value : Str) (draws : PutDraws)

theorem settled_getAttempt : ∀ call ∈ node.getAttempt key, Settles call.accesses := by
  unfold getAttempt
  split
  next =>
    split
    next => exact List.forall_mem_nil _
    next => exact List.forall_mem_singleton.mpr (Accesses.settles_single _)
  next => exact List.forall_mem_nil _

theorem settled_updateAttempt (won : Bool) : ∀ call ∈ node.updateAttempt won key, Settles call.accesses := by
  unfold updateAttempt
  split
  next =>
    split
    next => exact List.forall_mem_nil _
    next =>
      split
      next =>
        exact List.forall_mem_cons.mpr
          ⟨Accesses.settles_single _, List.forall_mem_singleton.mpr (Accesses.settles_single _)⟩
      next => exact List.forall_mem_nil _
  next => exact List.forall_mem_nil _

theorem settles_fetchCall (breakdown : Bool) : Settles (node.fetchCall target breakdown).accesses := by
  unfold fetchCall
  cases breakdown with
  | true => exact HelperCall.settles_fetchTwoParallel _ _
  | false => exact HelperCall.settles_fetchTwo _ _

variable [Digest]

theorem settled_tryPutCalls (type : LinkedNodeType) :
    ∀ call ∈ node.tryPutCalls thread target key value type, Settles call.accesses := by
  unfold tryPutCalls
  split
  next =>
    split
    next => exact List.forall_mem_singleton.mpr (Accesses.settles_single _)
    next => exact List.forall_mem_nil _
  next => exact List.forall_mem_nil _

theorem settles_followPlanCall (done : Bool) (plan : PutPlan) :
    Settles (node.followPlanCall source thread target key value done plan).accesses := by
  cases plan with
  | morph => exact HelperCall.settles_writeBackMorphed _ _
  | eager => exact HelperCall.settles_writeBackMorphed _ _
  | split leftCap leftType rightType leftArgument rightArgument =>
    exact HelperCall.settles_writeBackSplitted _ _ _

theorem settled_putAttempt (breakdown won : Bool) :
    ∀ call ∈ node.putAttempt source thread target key value draws breakdown won, Settles call.accesses := by
  unfold putAttempt
  by_cases competes : (node.slist.nodes target).type.IsData ∧ won = true
  · simp only [if_pos competes]
    unfold putWonCalls
    simp only
    refine List.forall_mem_append.mpr ⟨List.forall_mem_cons.mpr ⟨node.settles_fetchCall target breakdown,
      (node.fetchTwo thread target).settled_tryPutCalls thread target key value _⟩, ?_⟩
    split
    next => exact List.forall_mem_nil _
    next => exact List.forall_mem_singleton.mpr (settles_followPlanCall _ source thread target key value _ _)
  · simp only [if_neg competes]
    exact List.forall_mem_nil _

theorem settled_quickPutCalls : ∀ call ∈ node.quickPutCalls source thread key value, Settles call.accesses := by
  unfold quickPutCalls
  by_cases flushed : node.remotePut = true
  · rw [if_pos flushed]
    exact List.forall_mem_nil _
  · rw [if_neg flushed]
    simp only
    split
    next => exact List.forall_mem_nil _
    next =>
      exact List.forall_mem_cons.mpr
        ⟨Accesses.settles_single _, List.forall_mem_singleton.mpr (Accesses.settles_single _)⟩

end Attempts

/-! ### The loop of `scan` -/

section Loop

variable {start : ComputeNode} {thread : ThreadId} {key : Str} {count second : Nat} {state : ScanState}
variable {rdma : Option RdmaContext}

theorem scanLoopCalls_round {fuel : Nat} {last first next : NodeId}
    (ahead : state.node.slist.forward 0 last = some first)
    (more : state.node.slist.forward 0 first = some next) :
    scanLoopCalls thread key count (fuel + 1) last rdma state =
      .fetchTwoAsync (state.node.dataNodeOf first) (state.node.dataNodeOf next) ::
        .pollFetchTwoAsync (some (getRdma (state.node.dataNodeOf first))) ::
        if (state.round thread key count first next).total < count then
          scanLoopCalls thread key count fuel next (some (getRdma (state.node.dataNodeOf first)))
            (state.round thread key count first next)
        else [] := by
  rw [scanLoopCalls]
  simp only [ahead, more]
  rfl

/-- The requests of the loop are accounted for exactly when it returns. -/
theorem scanLoop_accounted_iff {rest : List NodeId} {fuel : Nat} {last : NodeId}
    (looping : Looping start thread key count second state)
    (linked : Linked (start.slist.forward 0) last rest) (enough : rest.length < fuel) :
    Accounted (fun _ => 0) ((scanLoopCalls thread key count fuel last rdma state).flatMap HelperCall.accesses) ↔
      ∃ total, (scanLoop thread key count fuel last state).1 = .returned total := by
  induction rest using List.twoStepInduction generalizing last state fuel rdma with
  | nil =>
    obtain ⟨fuel, rfl⟩ : ∃ smaller, fuel = smaller + 1 := ⟨fuel - 1, by omega⟩
    have stop : state.node.slist.forward 0 last = none := by
      rw [looping.slist]
      exact linked
    rw [scanLoopCalls, scanLoop]
    simp only [stop, List.flatMap_singleton]
    apply iff_of_false
    · cases rdma with
      | none => exact id
      | some context => exact fun accounted => absurd accounted.1 (Nat.lt_irrefl 0)
    · rintro ⟨total, returned⟩
      rcases looping.poll with isNull | isStuck
      · rw [isNull] at returned
        cases returned
      · rw [isStuck] at returned
        cases returned
  | singleton only =>
    obtain ⟨fuel, rfl⟩ : ∃ smaller, fuel = smaller + 1 := ⟨fuel - 1, by omega⟩
    have first : state.node.slist.forward 0 last = some only := by
      rw [looping.slist]
      exact linked.1
    have stop : state.node.slist.forward 0 only = none := by
      rw [looping.slist]
      exact linked.2
    rw [scanLoopCalls, scanLoop]
    simp only [first, stop, List.flatMap_singleton]
    exact iff_of_true (Accesses.settles_single _).accounted ⟨_, rfl⟩
  | cons_cons first next rest ih _ =>
    obtain ⟨fuel, rfl⟩ : ∃ smaller, fuel = smaller + 1 := ⟨fuel - 1, by omega⟩
    have ahead : state.node.slist.forward 0 last = some first := by
      rw [looping.slist]
      exact linked.1
    have more : state.node.slist.forward 0 first = some next := by
      rw [looping.slist]
      exact linked.2.1
    rw [scanLoopCalls_round ahead more, scanLoop_round ahead more, List.flatMap_cons, List.flatMap_cons,
      ← List.append_assoc]
    rw [HelperCall.settles_fetchTwoAsync (state.node.dataNodeOf first) (state.node.dataNodeOf next)]
    by_cases goesOn : (state.round thread key count first next).total < count
    · rw [if_pos goesOn, if_pos goesOn]
      apply ih looping.round linked.2.2
      simp at enough
      omega
    · rw [if_neg goesOn, if_neg goesOn]
      exact iff_of_true (fun _ => rfl) ⟨_, rfl⟩

end Loop

/-! ### Scans -/

/-- All that a scan counts if it gets to the end of the chain: the two nodes it starts with, and what
its loop counts for the pairs behind them. -/
def countedFrom (node : ComputeNode) (thread : ThreadId) (key : Str) (first second : NodeId)
    (rest : List NodeId) : Nat :=
  let right := LinkedNode.overlay (sizeofNode (node.slist.nodes second).type) (node.imageOf second)
    (node.buffers thread 1)
  let left := LinkedNode.overlay (sizeofNode (node.slist.nodes first).type) (node.imageOf first)
    (node.buffers thread 0)
  right.qualifying key + left.qualifying key +
    node.counted key (right.qualifying key) ((rest.length - 1) / 2) rest left

/-- The scan starts at the last node. Or an odd number of nodes follows the two it starts with, or it
has counted enough before it comes to the end of the chain. -/
def ScanWaits (node : ComputeNode) (thread : ThreadId) (key : Str) (count : Nat) : Prop :=
  match node.nodesFrom key with
  | first :: second :: rest =>
      key ≤ node.slist.anchorOf second →
        rest.length % 2 = 1 ∨ rest ≠ [] ∧ count ≤ node.countedFrom thread key first second rest
  | _ => True

variable {node : ComputeNode} {levels : Nat → List NodeId}

/-- The node that the search finds, with the chain behind it. -/
theorem nodesFrom_of_ordered (ordered : node.slist.Ordered levels) (key : Str) :
    ∃ first rest, node.slist.fuzzySearch key = some first ∧ Linked (node.slist.forward 0) first rest ∧
      rest.length ≤ node.slist.count ∧ node.nodesFrom key = first :: rest := by
  have isRoute := ordered.fuzzySearch_eq key
  have linked := ordered.linked 0
  have bound := ordered.length_le 0
  have isMember : route node.slist.anchorOf SkipList.head (levels 0) key ∈ SkipList.head :: levels 0 :=
    route_mem (ordered.sorted 0)
  generalize route node.slist.anchorOf SkipList.head (levels 0) key = first at isRoute isMember
  have behind : ∃ rest, Linked (node.slist.forward 0) first rest ∧ rest.length ≤ node.slist.count := by
    rcases List.mem_cons.mp isMember with isHead | inChain
    · rw [isHead]
      exact ⟨levels 0, linked, bound⟩
    · obtain ⟨before, rest, split⟩ := List.append_of_mem inChain
      rw [split] at linked bound
      refine ⟨rest, linked.suffix, ?_⟩
      simp at bound
      omega
  obtain ⟨rest, fromFirst, short⟩ := behind
  refine ⟨first, rest, isRoute, fromFirst, short, ?_⟩
  unfold nodesFrom
  simp only [isRoute]
  rw [follow_eq fromFirst short]

theorem scan_accounted_iff (ordered : node.slist.Ordered levels) (thread : ThreadId) (key : Str) (count : Nat) :
    Accounted (fun _ => 0) ((node.scanCalls thread key count).flatMap HelperCall.accesses) ↔
      node.ScanWaits thread key count := by
  obtain ⟨first, rest, isFirst, linked, short, isChain⟩ := nodesFrom_of_ordered ordered key
  unfold scanCalls ScanWaits
  rw [isChain]
  simp only [isFirst]
  cases rest with
  | nil =>
    have stop : node.slist.forward 0 first = none := linked
    simp only [stop, List.flatMap_singleton]
    exact iff_of_true (Accesses.settles_single _).accounted trivial
  | cons second rest =>
    have next : node.slist.forward 0 first = some second := linked.1
    simp only [next]
    by_cases inRange : key ≤ (node.slist.nodes second).anchor
    · have looping := node.scanStart_looping thread key count first second
      have isAhead := node.scanStart_ahead thread key first second rest
      have returns := @scanLoop_returned_iff node thread key count _ _ rest node.slist.count second looping
        linked.2 short
      rw [if_pos inRange, List.flatMap_cons, HelperCall.settles_fetchTwo, scanLoop_accounted_iff looping linked.2 short]
      simp only [returns, isAhead, exists_and_left, exists_eq, and_true]
      exact (imp_iff_right inRange).symm
    · rw [if_neg inRange, List.flatMap_singleton]
      exact iff_of_true (Accesses.settles_single _).accounted fun low => absurd low inRange

end ComputeNode

/-! ### All operations -/

namespace RemoteCall

/-- The search layer of a scan is one: its bottom level ends. -/
def Shaped : RemoteCall → Prop
  | .scan start _ _ => ∃ levels, start.slist.Ordered levels
  | _ => True

/-- A scan must not wait for a pair of nodes that does not exist. -/
def Waits (thread : ThreadId) : RemoteCall → Prop
  | .scan start key count => start.ScanWaits thread key count
  | _ => True

/-- Every poll of an operation finds the completion of a request, and none is left, exactly when
a scan, if it is one, does not come to the end of the chain behind a whole pair. -/
theorem completions_accounted_iff [Digest] (source : SegmentSource) (thread : ThreadId) {operation : RemoteCall}
    (shaped : operation.Shaped) :
    Accounted (fun _ => 0) (operation.accesses source thread) ↔ operation.Waits thread := by
  cases operation with
  | get attempts key =>
    apply iff_of_true _ trivial
    apply (settles_flatMap _).accounted
    intro call isCall
    obtain ⟨node, _, isOwn⟩ := List.mem_flatMap.mp isCall
    exact node.settled_getAttempt key call isOwn
  | update attempts key =>
    apply iff_of_true _ trivial
    apply (settles_flatMap _).accounted
    intro call isCall
    obtain ⟨attempt, _, isOwn⟩ := List.mem_flatMap.mp isCall
    exact attempt.1.settled_updateAttempt key attempt.2 call isOwn
  | put start attempts key value draws breakdown =>
    apply iff_of_true _ trivial
    apply (settles_flatMap (List.forall_mem_append.mpr
      ⟨start.settled_quickPutCalls source thread key value, _⟩)).accounted
    split
    next => exact List.forall_mem_nil _
    next target _ =>
      split
      next =>
        intro call isCall
        obtain ⟨attempt, _, isOwn⟩ := List.mem_flatMap.mp isCall
        exact attempt.1.settled_putAttempt source thread target key value draws breakdown attempt.2 call isOwn
      next => exact List.forall_mem_nil _
  | scan start key count =>
    obtain ⟨levels, ordered⟩ := shaped
    exact ComputeNode.scan_accounted_iff ordered thread key count

attribute [local instance] Digests.source

theorem twoNodes_shaped (key : Str) (count : Nat) : (scan ComputeNode.twoNodes key count).Shaped := by
  obtain ⟨levels, quiescent, _⟩ := ComputeNode.twoNodes_quiescent
  exact ⟨levels, quiescent.ordered⟩

/-- A scan from the last of two nodes. -/
theorem last_node_accounted :
    Accounted (fun _ => 0)
      ((scan ComputeNode.twoNodes (Bytes16.fill 98).val 5).accesses (.memoryNode 0) 0) := by
  apply (completions_accounted_iff (.memoryNode 0) 0 (twoNodes_shaped _ 5)).mpr
  have last : ComputeNode.twoNodes.nodesFrom (Bytes16.fill 98).val = [2] := by decide +kernel
  change ComputeNode.twoNodes.ScanWaits 0 (Bytes16.fill 98).val 5
  unfold ComputeNode.ScanWaits
  rw [last]
  trivial

/-- A scan from the first of two nodes polls a context that it never got. -/
theorem two_nodes_not_accounted :
    (scan ComputeNode.twoNodes (Bytes16.fill 97).val 5).Shaped ∧
      ¬ Accounted (fun _ => 0)
        ((scan ComputeNode.twoNodes (Bytes16.fill 97).val 5).accesses (.memoryNode 0) 0) := by
  refine ⟨twoNodes_shaped _ 5, fun accounted => ?_⟩
  obtain ⟨levels, quiescent, _⟩ := ComputeNode.twoNodes_quiescent
  have waits := (ComputeNode.scan_accounted_iff quiescent.ordered 0 (Bytes16.fill 97).val 5).mp accounted
  have chain : ComputeNode.twoNodes.nodesFrom (Bytes16.fill 97).val = [1, 2] := by decide +kernel
  have inRange : (Bytes16.fill 97).val ≤ ComputeNode.twoNodes.slist.anchorOf 2 := by decide +kernel
  unfold ComputeNode.ScanWaits at waits
  rw [chain] at waits
  rcases waits inRange with odd | ⟨notEmpty, _⟩
  · cases odd
  · exact notEmpty rfl

end RemoteCall

end DiStore.Cluster
