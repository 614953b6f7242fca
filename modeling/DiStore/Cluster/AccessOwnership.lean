import DiStore.Cluster.Accesses
import DiStore.Cluster.ScanCount
import DiStore.Common.DecimalText

/-!
Contract: which memory node a request goes to.

Owns: the node ids of the memory configuration, the contexts and base addresses indexed by
its lines, and when every request of an operation reaches the node that its pointer names.

Does not own: the addresses and ports of a line. The parse of a line reads them too, and a
configuration here is one that it accepts.
-/

set_option autoImplicit false

namespace DiStore.Cluster

open DiStore.Concurrency DiStore.DataLayer DiStore.Library DiStore.Memory DiStore.SearchLayer

/-! ### The configuration -/

/-- A match of `node(\d+)` at the start, and `atoi` of the digits. -/
def nodeIdAt : Str → Option Nat
  | 110 :: 111 :: 100 :: 101 :: rest =>
      let digits := rest.takeWhile isDigitLetter
      if digits = [] then none else some (numberOf digits)
  | _ => none

/-- `regex_search` for `node(\d+)` in a line. -/
def searchNodeId : Str → Option Nat
  | [] => none
  | byte :: rest => (nodeIdAt (byte :: rest)).orElse fun _ => searchNodeId rest

/-- What is kept of `MemoryNodeInfo`. -/
structure MemoryNodeInfo where
  nodeId : Nat
  baseAddr : TaggedPointer

/-- A configuration with distinct ids. `bases` are the addresses that the nodes send when the compute
node connects to the lines in order. -/
structure MemoryConfig where
  lines : List Str
  nodeIds : List Nat
  parsed : lines.map searchNodeId = nodeIds.map some
  distinct : nodeIds.Nodup
  small : ∀ nodeId ∈ nodeIds, nodeId < 64
  bases : Nat → BitVec 64

namespace MemoryConfig

variable (config : MemoryConfig)

/-- `memory_nodes`; a node tags its base address with its own id. -/
def memoryNodes : List MemoryNodeInfo :=
  config.nodeIds.mapIdx fun line nodeId =>
    ⟨nodeId, .makeRemotePointer (BitVec.ofNat 64 nodeId) (config.bases line)⟩

/-- `get_base_addr`. -/
def getBaseAddr (nodeId : Nat) : Option TaggedPointer :=
  config.memoryNodes[nodeId]?.map MemoryNodeInfo.baseAddr

/-- The id of the node that a context is connected to: both lists of contexts follow the lines. -/
def connectedTo (context : RdmaContext) : Option Nat :=
  config.memoryNodes[context.index]?.map MemoryNodeInfo.nodeId

/-- Every id is the place of its line. -/
def InOrder : Prop := ∀ line nodeId : Nat, config.nodeIds[line]? = some nodeId → nodeId = line

/-- Every request goes to the node that its pointer names. -/
def OwnsAccesses (accesses : Accesses) : Prop :=
  ∀ context target signaled, .post context target signaled ∈ accesses →
    config.connectedTo context = some (nodeOf target)

/-- `get_base_addr` answers with the base address of the node. -/
def OwnsBases : Prop := ∀ info ∈ config.memoryNodes, config.getBaseAddr info.nodeId = some info.baseAddr

/-- Every pointer of the requests was granted by a configured node. -/
def Placed (accesses : Accesses) : Prop :=
  ∀ context target signaled, .post context target signaled ∈ accesses → nodeOf target ∈ config.nodeIds

theorem memoryNodes_getElem? (line : Nat) :
    config.memoryNodes[line]? = config.nodeIds[line]?.map fun nodeId =>
      ⟨nodeId, .makeRemotePointer (BitVec.ofNat 64 nodeId) (config.bases line)⟩ :=
  List.getElem?_mapIdx

theorem connectedTo_eq (context : RdmaContext) : config.connectedTo context = config.nodeIds[context.index]? := by
  unfold connectedTo
  rw [memoryNodes_getElem?, Option.map_map]
  exact Option.map_id'

/-- The base addresses are right only if the lines are in order. -/
theorem ownsBases_iff : config.OwnsBases ↔ config.InOrder := by
  constructor
  · intro owns line nodeId isId
    have isInfo := config.memoryNodes_getElem? line
    rw [isId] at isInfo
    have found := owns _ (List.mem_of_getElem? isInfo)
    unfold getBaseAddr at found
    rw [memoryNodes_getElem?, Option.map_map] at found
    obtain ⟨other, isOther, same⟩ := Option.map_eq_some_iff.mp found
    have bound := config.small nodeId (List.mem_of_getElem? isId)
    have otherBound := config.small other (List.mem_of_getElem? isOther)
    have tags := congrArg TaggedPointer.getNode same
    change TaggedPointer.getNode (.makeRemotePointer (BitVec.ofNat 64 other) (config.bases nodeId)) =
      TaggedPointer.getNode (.makeRemotePointer (BitVec.ofNat 64 nodeId) (config.bases line)) at tags
    rw [TaggedPointer.getNode_makeRemotePointer _ otherBound, TaggedPointer.getNode_makeRemotePointer _ bound] at tags
    obtain ⟨inRange, isElem⟩ := List.getElem?_eq_some_iff.mp isId
    obtain ⟨otherRange, isOtherElem⟩ := List.getElem?_eq_some_iff.mp isOther
    exact (List.Nodup.getElem_inj_iff config.distinct).mp (isOtherElem.trans (tags.trans isElem.symm))
  · intro inOrder info isMember
    obtain ⟨line, isInfo⟩ := List.mem_iff_getElem?.mp isMember
    have asInfo := isInfo
    rw [memoryNodes_getElem?] at asInfo
    obtain ⟨nodeId, isId, same⟩ := Option.map_eq_some_iff.mp asInfo
    have place : info.nodeId = line := by
      rw [← same]
      exact inOrder line nodeId isId
    unfold getBaseAddr
    rw [place, isInfo]
    rfl

end MemoryConfig

/-! ### The pointers of a helper -/

namespace HelperCall

/-- The pointers that the helper is given name one node. -/
def OneNode (call : HelperCall) : Prop :=
  ∀ pointer ∈ call.pointers, ∀ other ∈ call.pointers, nodeOf pointer = nodeOf other

/-- The requests that the helper posts: the context and the pointer of each. -/
def posts (call : HelperCall) : List (RdmaContext × RemotePointer) :=
  call.accesses.filterMap fun
    | .post context target _ => some (context, target)
    | .poll _ => none

theorem mem_posts {call : HelperCall} {context : RdmaContext} {target : RemotePointer} :
    (context, target) ∈ call.posts ↔ ∃ signaled, .post context target signaled ∈ call.accesses := by
  unfold posts
  rw [List.mem_filterMap]
  constructor
  · rintro ⟨access, isAccess, isPost⟩
    cases access with
    | post _ _ signaled =>
      cases isPost
      exact ⟨signaled, isAccess⟩
    | poll _ => cases isPost
  · rintro ⟨signaled, isAccess⟩
    exact ⟨_, isAccess, rfl⟩

/-- A helper takes its contexts from one of its pointers, and posts one request for each of them. -/
structure Rooted (call : HelperCall) (root : RemotePointer) : Prop where
  isPointer : root ∈ call.pointers
  chosen : ∀ post ∈ call.posts, post.1.index = nodeOf root
  posted : call.pointers.Perm (call.posts.map Prod.snd)

theorem Rooted.of_post {call : HelperCall} {root target : RemotePointer} (rooted : call.Rooted root)
    {context : RdmaContext} {signaled : Bool} (isPost : .post context target signaled ∈ call.accesses) :
    target ∈ call.pointers ∧ context.index = nodeOf root := by
  have inPosts : (context, target) ∈ call.posts := mem_posts.mpr ⟨signaled, isPost⟩
  exact ⟨rooted.posted.mem_iff.mpr (List.mem_map_of_mem inPosts), rooted.chosen _ inPosts⟩

theorem Rooted.exists_post {call : HelperCall} {root target : RemotePointer} (rooted : call.Rooted root)
    (isPointer : target ∈ call.pointers) : ∃ context signaled, .post context target signaled ∈ call.accesses := by
  obtain ⟨⟨context, _⟩, inPosts, isTarget⟩ := List.mem_map.mp (rooted.posted.mem_iff.mp isPointer)
  cases isTarget
  exact ⟨context, mem_posts.mp inPosts⟩

theorem rooted_fetchAs (remote : RemotePointer) : (fetchAs remote).Rooted remote :=
  ⟨List.mem_cons_self, List.forall_mem_singleton.mpr rfl, .refl _⟩

theorem rooted_writeTo (remote : RemotePointer) : (writeTo remote).Rooted remote :=
  ⟨List.mem_cons_self, List.forall_mem_singleton.mpr rfl, .refl _⟩

theorem rooted_writeBackCurrent (remote : RemotePointer) : (writeBackCurrent remote).Rooted remote :=
  ⟨List.mem_cons_self, List.forall_mem_singleton.mpr rfl, .refl _⟩

theorem rooted_fetchTwo (left right : RemotePointer) : (fetchTwo left right).Rooted left :=
  ⟨List.mem_cons_self, List.forall_mem_cons.mpr ⟨rfl, List.forall_mem_singleton.mpr rfl⟩, .swap right left []⟩

/-- Of the two contexts one is parallel; both are those of the left pointer's node. -/
theorem rooted_fetchTwoParallel (left right : RemotePointer) : (fetchTwoParallel left right).Rooted left :=
  ⟨List.mem_cons_self, List.forall_mem_cons.mpr ⟨rfl, List.forall_mem_singleton.mpr rfl⟩, .swap right left []⟩

theorem rooted_fetchTwoAsync (left right : RemotePointer) : (fetchTwoAsync left right).Rooted left :=
  ⟨List.mem_cons_self, List.forall_mem_cons.mpr ⟨rfl, List.forall_mem_singleton.mpr rfl⟩, .refl _⟩

theorem rooted_writeBackMorphed (pred r : RemotePointer) : (writeBackMorphed pred r).Rooted r :=
  ⟨List.mem_cons_of_mem _ List.mem_cons_self,
    List.forall_mem_cons.mpr ⟨rfl, List.forall_mem_singleton.mpr rfl⟩, .refl _⟩

theorem rooted_writeBackSplitted (pred l r : RemotePointer) : (writeBackSplitted pred l r).Rooted l :=
  ⟨List.mem_cons_of_mem _ List.mem_cons_self,
    List.forall_mem_cons.mpr ⟨rfl, List.forall_mem_cons.mpr ⟨rfl, List.forall_mem_singleton.mpr rfl⟩⟩, .refl _⟩

/-- Only the poll of a scan is given no pointer; it posts nothing. -/
theorem rooted_or_polls (call : HelperCall) :
    (∃ root, call.Rooted root) ∨ call.pointers = [] ∧
      ∀ context target signaled, .post context target signaled ∉ call.accesses := by
  cases call with
  | fetchAs remote => exact Or.inl ⟨remote, rooted_fetchAs remote⟩
  | writeTo remote => exact Or.inl ⟨remote, rooted_writeTo remote⟩
  | writeBackCurrent remote => exact Or.inl ⟨remote, rooted_writeBackCurrent remote⟩
  | fetchTwo left right => exact Or.inl ⟨left, rooted_fetchTwo left right⟩
  | fetchTwoParallel left right => exact Or.inl ⟨left, rooted_fetchTwoParallel left right⟩
  | fetchTwoAsync left right => exact Or.inl ⟨left, rooted_fetchTwoAsync left right⟩
  | pollFetchTwoAsync rdma =>
    refine Or.inr ⟨rfl, fun context target signaled isPost => ?_⟩
    simp [accesses, Accesses.pollFetchTwoAsync] at isPost
  | writeBackMorphed pred r => exact Or.inl ⟨r, rooted_writeBackMorphed pred r⟩
  | writeBackSplitted pred l r => exact Or.inl ⟨l, rooted_writeBackSplitted pred l r⟩

end HelperCall

/-! ### Requests at their owners -/

namespace MemoryConfig

variable {config : MemoryConfig} {accesses : Accesses} {calls : List HelperCall}

/-- With the lines in order a context is connected to the node of the pointer it was taken from. -/
theorem connectedTo_of_inOrder (inOrder : config.InOrder) {context : RdmaContext} {root : RemotePointer}
    (chosen : context.index = nodeOf root) (configured : nodeOf root ∈ config.nodeIds) :
    config.connectedTo context = some (nodeOf root) := by
  obtain ⟨line, isId⟩ := List.mem_iff_getElem?.mp configured
  have place := inOrder line _ isId
  rw [← place] at isId
  rw [connectedTo_eq, chosen]
  exact isId

/-- The requests of one helper: right if its pointers name one node, and only then. -/
theorem ownsAccesses_call_iff (inOrder : config.InOrder) {call : HelperCall} (placed : config.Placed call.accesses) :
    config.OwnsAccesses call.accesses ↔ call.OneNode := by
  rcases call.rooted_or_polls with ⟨root, rooted⟩ | ⟨noPointer, noPost⟩
  · have configured : nodeOf root ∈ config.nodeIds := by
      obtain ⟨context, signaled, isPost⟩ := rooted.exists_post rooted.isPointer
      exact placed context root signaled isPost
    constructor
    · intro owns
      have sameAsRoot : ∀ pointer ∈ call.pointers, nodeOf pointer = nodeOf root := by
        intro pointer isPointer
        obtain ⟨context, signaled, isPost⟩ := rooted.exists_post isPointer
        have connected := owns context pointer signaled isPost
        rw [connectedTo_of_inOrder inOrder (rooted.of_post isPost).2 configured] at connected
        exact (Option.some.inj connected).symm
      intro pointer isPointer other isOther
      rw [sameAsRoot pointer isPointer, sameAsRoot other isOther]
    · intro oneNode context target signaled isPost
      obtain ⟨isPointer, chosen⟩ := rooted.of_post isPost
      rw [connectedTo_of_inOrder inOrder chosen configured, oneNode target isPointer root rooted.isPointer]
  · refine iff_of_true (fun context target signaled isPost => ?_) (fun pointer isPointer => ?_)
    · exact absurd isPost (noPost context target signaled)
    · rw [noPointer] at isPointer
      cases isPointer

theorem ownsAccesses_flatMap :
    config.OwnsAccesses (calls.flatMap HelperCall.accesses) ↔ ∀ call ∈ calls, config.OwnsAccesses call.accesses := by
  constructor
  · intro owns call isCall context target signaled isPost
    exact owns context target signaled (List.mem_flatMap.mpr ⟨call, isCall, isPost⟩)
  · intro owns context target signaled isPost
    obtain ⟨call, isCall, isOwn⟩ := List.mem_flatMap.mp isPost
    exact owns call isCall context target signaled isOwn

theorem Placed.call (placed : config.Placed (calls.flatMap HelperCall.accesses)) {call : HelperCall}
    (isCall : call ∈ calls) : config.Placed call.accesses := fun context target signaled isPost =>
  placed context target signaled (List.mem_flatMap.mpr ⟨call, isCall, isPost⟩)

theorem ownsAccesses_iff (inOrder : config.InOrder) (placed : config.Placed (calls.flatMap HelperCall.accesses)) :
    config.OwnsAccesses (calls.flatMap HelperCall.accesses) ↔ ∀ call ∈ calls, call.OneNode := by
  rw [ownsAccesses_flatMap]
  exact forall₂_congr fun call isCall => ownsAccesses_call_iff inOrder (placed.call isCall)

theorem inOrder_of_single (single : config.nodeIds = [0]) : config.InOrder := by
  intro line nodeId isId
  rw [single] at isId
  obtain ⟨inRange, isElem⟩ := List.getElem?_eq_some_iff.mp isId
  have first : line = 0 := Nat.lt_one_iff.mp inRange
  subst first
  exact isElem.symm

theorem oneNode_of_single (single : config.nodeIds = [0]) {call : HelperCall} (placed : config.Placed call.accesses) :
    call.OneNode := by
  rcases call.rooted_or_polls with ⟨root, rooted⟩ | ⟨noPointer, _⟩
  · have onZero : ∀ pointer ∈ call.pointers, nodeOf pointer = 0 := by
      intro pointer isPointer
      obtain ⟨context, signaled, isPost⟩ := rooted.exists_post isPointer
      have configured := placed context pointer signaled isPost
      rw [single] at configured
      exact List.mem_singleton.mp configured
    intro pointer isPointer other isOther
    rw [onZero pointer isPointer, onZero other isOther]
  · intro pointer isPointer
    rw [noPointer] at isPointer
    cases isPointer

/-- The requests of an operation and the base addresses are right exactly when the ids are the places
of their lines and every helper that it calls finds its pointers on one node, as with a single node 0. -/
theorem accesses_owned_iff [Digest] (source : SegmentSource) (thread : ThreadId) {operation : RemoteCall}
    (placed : config.Placed (operation.accesses source thread)) :
    (config.OwnsAccesses (operation.accesses source thread) ∧ config.OwnsBases ↔
      config.InOrder ∧ ∀ call ∈ operation.calls source thread, call.OneNode) ∧
      (config.nodeIds = [0] → config.OwnsAccesses (operation.accesses source thread) ∧ config.OwnsBases) := by
  have exactly : config.OwnsAccesses (operation.accesses source thread) ∧ config.OwnsBases ↔
      config.InOrder ∧ ∀ call ∈ operation.calls source thread, call.OneNode := by
    rw [ownsBases_iff]
    constructor
    · rintro ⟨owns, inOrder⟩
      exact ⟨inOrder, (ownsAccesses_iff inOrder placed).mp owns⟩
    · rintro ⟨inOrder, oneNode⟩
      exact ⟨(ownsAccesses_iff inOrder placed).mpr oneNode, inOrder⟩
  refine ⟨exactly, fun single => exactly.mpr ⟨inOrder_of_single single, fun call isCall => ?_⟩⟩
  exact oneNode_of_single single (Placed.call placed isCall)

attribute [local instance] Digests.source

/-- The line `node0: ...`, up to what follows the id. -/
def lineOf (digit : UInt8) : Str := [110, 111, 100, 101, digit, 58, 32]

def oneNode : MemoryConfig where
  lines := [lineOf 48]
  nodeIds := [0]
  parsed := by decide
  distinct := by decide
  small := by decide
  bases _ := 4096

/-- A read on the only memory node. -/
theorem one_node_owned :
    oneNode.OwnsAccesses ((RemoteCall.get [ComputeNode.twoNodes] (Bytes16.fill 98).val).accesses
      (.memoryNode 0) 0) ∧ oneNode.OwnsBases := by
  have isSingle : (RemoteCall.get [ComputeNode.twoNodes] (Bytes16.fill 98).val).accesses (.memoryNode 0) 0 =
      .single 2048 := by decide +kernel
  have placed : oneNode.Placed ((RemoteCall.get [ComputeNode.twoNodes] (Bytes16.fill 98).val).accesses
      (.memoryNode 0) 0) := by
    rw [isSingle]
    intro context target signaled isPost
    simp [Accesses.single] at isPost
    rw [isPost.2.1]
    decide
  exact (accesses_owned_iff (.memoryNode 0) 0 placed).2 rfl

/-- Two nodes, in the order of their ids. -/
def twoInOrder : MemoryConfig where
  lines := [lineOf 48, lineOf 49]
  nodeIds := [0, 1]
  parsed := by decide
  distinct := by decide
  small := by decide
  bases _ := 4096

/-- The same two lines the other way round. -/
def twoSwapped : MemoryConfig where
  lines := [lineOf 49, lineOf 48]
  nodeIds := [1, 0]
  parsed := by decide
  distinct := by decide
  small := by decide
  bases _ := 4096

/-- The second data node on memory node 1, the first one on memory node 0. -/
def spread : ComputeNode :=
  { ComputeNode.twoNodes with slist := ComputeNode.twoNodes.slist.setDataNode 2 0x8100000000000800 }

/-- A put of a new key to the second data node. -/
def spreadPut : RemoteCall :=
  .put spread [(spread, true)] (Bytes16.fill 99).val (Bytes16.fill 99).val ⟨⟨1, level_one⟩, .done, .done⟩ false

/-- The put reads the node of memory node 1 through the context of memory node 0. And with the lines
swapped the base addresses are those of the other node. -/
theorem spread_not_owned :
    twoInOrder.Placed (spreadPut.accesses (.memoryNode 0) 0) ∧
      ¬ twoInOrder.OwnsAccesses (spreadPut.accesses (.memoryNode 0) 0) ∧ ¬ twoSwapped.OwnsBases := by
  have requests : spreadPut.accesses (.memoryNode 0) 0 =
      .fetchTwo 1024 0x8100000000000800 ++ .writeBackCurrent 0x8100000000000800 := by decide +kernel
  rw [requests]
  refine ⟨?_, fun owns => ?_, fun owns => ?_⟩
  · intro context target signaled isPost
    simp [Accesses.fetchTwo, Accesses.writeBackCurrent, Accesses.single] at isPost
    rcases isPost with both | both | both
    · rw [both.2.1]
      decide
    · rw [both.2.1]
      decide
    · rw [both.2.1]
      decide
  · have misread := owns (getRdma 1024) 0x8100000000000800 true List.mem_cons_self
    rw [connectedTo_eq] at misread
    revert misread
    decide
  · have inOrder := twoSwapped.ownsBases_iff.mp owns 0 1 rfl
    cases inOrder

end MemoryConfig

end DiStore.Cluster
